import AmneziaBox.Source.WinDivert.Filter

/-!
# The compiled filter is the filter

The driver's filter machine tests one instruction after the other and follows its success
or failure target. A program that `encode` writes decodes to the instructions of the
filter with their targets, stays inside itself, and accepts the packets for which all
mandatory tests hold and one of the alternatives, if there are any.
-/
namespace AmneziaBox.Guarantees.DivertFilter
open Source.Adapter Source.WinDivert Library Endian List BitVec Filter

/-! ## The machine -/

def readWord : Reader (BitVec 32) := do
  let bytes ← readFull 4
  pure (BitVec.ofNat 32 (little.get bytes))

/-- The bit fields of an instruction: `field:11 | test:5 | success:16` in the first word,
`failure:16 | neg:1` in the second. -/
def decodeInst (word0 word1 : BitVec 32) (arg : Arg) : FilterInst where
  field := (word0.extractLsb' 0 11).setWidth 16
  test := (word0.extractLsb' 11 5).setWidth 8
  success := word0.extractLsb' 16 16
  failure := word1.extractLsb' 0 16
  neg := word1.getLsbD 16
  arg := arg

def readInst : Reader FilterInst := do
  let word0 ← readWord
  let word1 ← readWord
  let arg0 ← readWord
  let arg1 ← readWord
  let arg2 ← readWord
  let arg3 ← readWord
  pure (decodeInst word0 word1 ⟨arg0, arg1, arg2, arg3⟩)

/-- The instructions of a program. -/
def decode (program : Bytes) : Except Failure (List FilterInst) := do
  let (insts, _) ← readTimes (program.length / filterInstBytes) readInst program
  pure insts

/-- How the comparisons with the fields of a packet come out. -/
abbrev Packet := BitVec 16 → BitVec 8 → Arg → Bool

def holds (packet : Packet) (inst : FilterInst) : Bool :=
  packet inst.field inst.test inst.arg ^^ inst.neg

/-- Where the machine goes from an instruction. -/
def target (packet : Packet) (inst : FilterInst) : BitVec 16 :=
  if holds packet inst then inst.success else inst.failure

/-- The walk from an instruction on, with a bound on the steps. -/
def run (packet : Packet) (insts : List FilterInst) : Nat → Nat → Option Bool
  | 0, _ => none
  | steps + 1, index => do
    let inst ← insts[index]?
    if target packet inst = resultAccept then some true
    else if target packet inst = resultReject then some false
    else run packet insts steps (target packet inst).toNat

/-- The verdict on a packet, none if the walk leaves the program or does not end. -/
def evaluate (packet : Packet) (insts : List FilterInst) : Option Bool :=
  run packet insts insts.length 0

/-! ## Encoded instructions -/

/-- The field and the test fit into their bits. -/
structure Fits (inst : FilterInst) : Prop where
  field : inst.field.toNat < 2 ^ 11
  test : inst.test.toNat < 2 ^ 5

theorem reads_word (word : BitVec 32) : Reads readWord (little.put 4 word.toNat) word := by
  have read := (reads_full (little.put 4 word.toNat)).map fun bytes =>
    BitVec.ofNat 32 (little.get bytes)
  rw [get_put .little word.isLt, BitVec.ofNat_toNat] at read
  exact read

/-- The bits of a constant are found by looking at those that it has. -/
theorem constant_bits {width : Nat} {value : BitVec width} {set : Nat → Prop} [DecidablePred set]
    (inside : ∀ index < width, value.getLsbD index = decide (set index))
    (beyond : ∀ index, width ≤ index → ¬ set index) (index : Nat) :
    value.getLsbD index = decide (set index) := by
  by_cases small : index < width
  · exact inside index small
  · have large := Nat.le_of_not_lt small
    rw [getLsbD_of_ge _ _ large, decide_eq_false (beyond index large)]

theorem mask_field : ∀ index, (0x7ff : BitVec 16).getLsbD index = decide (index < 11) :=
  constant_bits (by decide) (by omega)

theorem mask_test : ∀ index, (0x1f : BitVec 8).getLsbD index = decide (index < 5) :=
  constant_bits (by decide) (by omega)

theorem flag_bit : ∀ index, ((1 : BitVec 32) <<< 16).getLsbD index = decide (index = 16) :=
  constant_bits (by decide) (by omega)

theorem masked {width bits : Nat} {mask value : BitVec width}
    (mask_bits : ∀ index, mask.getLsbD index = decide (index < bits))
    (fits : value.toNat < 2 ^ bits) : value &&& mask = value := by
  apply eq_of_getLsbD_eq
  intro i _
  rw [getLsbD_and, mask_bits]
  by_cases small : i < bits
  · rw [decide_eq_true small, Bool.and_true]
  · have high : value.getLsbD i = false := Nat.testBit_lt_two_pow
      (Nat.lt_of_lt_of_le fits (Nat.pow_le_pow_right (by decide) (Nat.le_of_not_lt small)))
    rw [high, Bool.false_and]

theorem decode_word0 (inst : FilterInst) :
    ((word0 inst).extractLsb' 0 11).setWidth 16 = inst.field &&& 0x7ff ∧
      ((word0 inst).extractLsb' 11 5).setWidth 8 = inst.test &&& 0x1f ∧
      (word0 inst).extractLsb' 16 16 = inst.success := by
  unfold word0
  refine ⟨?_, ?_, ?_⟩ <;> apply eq_of_getLsbD_eq <;> intro i hi <;>
    simp only [getLsbD_setWidth, getLsbD_extractLsb', getLsbD_or,
      getLsbD_shiftLeft, getLsbD_and, mask_field, mask_test] <;> grind

theorem decode_word1 (inst : FilterInst) :
    (word1 inst).extractLsb' 0 16 = inst.failure ∧ (word1 inst).getLsbD 16 = inst.neg := by
  unfold word1
  constructor
  · apply eq_of_getLsbD_eq
    intro i hi
    cases inst.neg <;> simp only [getLsbD_setWidth, getLsbD_extractLsb',
      getLsbD_or, if_true, Bool.false_eq_true, if_false, flag_bit] <;>
      grind
  · cases inst.neg <;> simp only [getLsbD_setWidth, getLsbD_or, if_true,
      Bool.false_eq_true, if_false, flag_bit] <;> grind

variable {inst : FilterInst}

theorem decodeInst_words (fits : Fits inst) :
    decodeInst (word0 inst) (word1 inst) inst.arg = inst := by
  obtain ⟨field, test, success⟩ := decode_word0 inst
  obtain ⟨failure, neg⟩ := decode_word1 inst
  rw [masked mask_field fits.field] at field
  rw [masked mask_test fits.test] at test
  unfold decodeInst
  rw [field, test, success, failure, neg]

/-- An encoded instruction decodes to what it was built from. -/
theorem reads_inst (fits : Fits inst) : Reads readInst (encodeInst inst) inst := by
  have last := (reads_word inst.arg.word3).map fun arg3 =>
    decodeInst (word0 inst) (word1 inst) ⟨inst.arg.word0, inst.arg.word1, inst.arg.word2, arg3⟩
  rw [decodeInst_words fits] at last
  unfold encodeInst
  exact (reads_word _).bind ((reads_word _).bind ((reads_word _).bind ((reads_word _).bind
    ((reads_word _).bind last))))

theorem program_length (insts : List FilterInst) :
    (insts.flatMap encodeInst).length = insts.length * filterInstBytes := by
  induction insts with
  | nil => simp
  | cons inst rest ih =>
    have one : (encodeInst inst).length = filterInstBytes := rfl
    rw [flatMap_cons, length_append, ih, one, length_cons, Nat.succ_mul, Nat.add_comm]

theorem decode_program {insts : List FilterInst} (fits : ∀ inst ∈ insts, Fits inst) :
    decode (insts.flatMap encodeInst) = .ok insts := by
  have all := reads_times_map (fun inst member => reads_inst (fits inst member)) []
  rw [append_nil, List.map_id'] at all
  unfold decode
  rw [program_length, Nat.mul_div_cancel _ (by decide), all]
  rfl

/-! ## The walk -/

section Walk
variable {filter : Filter} {packet : Packet} {index : Nat}

theorem program_inst {inst : FilterInst} (here : filter.insts[index]? = some inst) :
    filter.program[index]? = some (linkInst filter.total index inst) := by
  have inside : index < filter.insts.length := (List.getElem?_eq_some_iff.mp here).1
  unfold program
  rw [List.getElem?_append_left (by rw [List.length_mapIdx]; exact inside), List.getElem?_mapIdx,
    here]
  rfl

theorem program_anyInst {inst : FilterInst} (here : filter.anyInsts[index]? = some inst) :
    filter.program[filter.insts.length + index]? =
      some (linkAnyInst filter.total (filter.insts.length + index) inst) := by
  unfold program
  rw [getElem?_append_right (by rw [length_mapIdx]; omega), length_mapIdx,
    Nat.add_sub_cancel_left, getElem?_mapIdx, here]
  rfl

/-- A target that is an index is neither accept nor reject, and not changed by its width. -/
theorem target_index (small : index < filterMaxInsts) :
    BitVec.ofNat 16 index ≠ resultAccept ∧ BitVec.ofNat 16 index ≠ resultReject ∧
      (BitVec.ofNat 16 index).toNat = index := by
  have exact : (BitVec.ofNat 16 index).toNat = index := by
    rw [BitVec.toNat_ofNat]
    exact Nat.mod_eq_of_lt (Nat.lt_trans small (by decide))
  refine ⟨fun same => ?_, fun same => ?_, exact⟩
  · rw [same] at exact
    have large : resultAccept.toNat = 0x7ffe := rfl
    unfold filterMaxInsts at small
    omega
  · rw [same] at exact
    have large : resultReject.toNat = 0x7fff := rfl
    unfold filterMaxInsts at small
    omega

theorem drop_cons {α : Type} {list rest : List α} {first : α}
    (here : list.drop index = first :: rest) :
    list[index]? = some first ∧ list.drop (index + 1) = rest ∧
      index + (rest.length + 1) = list.length := by
  have head : list[index]? = some first := by rw [← head?_drop, here, head?_cons]
  have tail : list.drop (index + 1) = rest := by rw [← tail_drop, here, tail_cons]
  have length := congrArg length here
  rw [length_drop, length_cons] at length
  exact ⟨head, tail, by omega⟩

section Step
variable {insts : List FilterInst} {steps : Nat}

theorem run_accept (here : insts[index]? = some inst) (goes : target packet inst = resultAccept) :
    run packet insts (steps + 1) index = some true := by
  rw [run, here]
  exact if_pos goes

theorem run_reject (here : insts[index]? = some inst) (goes : target packet inst = resultReject) :
    run packet insts (steps + 1) index = some false := by
  rw [run, here]
  change (if target packet inst = resultAccept then _ else _) = _
  rw [goes, if_neg (by decide), if_pos rfl]

theorem run_next (here : insts[index]? = some inst) {next : Nat} (small : next < filterMaxInsts)
    (goes : target packet inst = BitVec.ofNat 16 next) :
    run packet insts (steps + 1) index = run packet insts steps next := by
  obtain ⟨notAccept, notReject, exact⟩ := target_index small
  rw [run, here]
  change (if target packet inst = resultAccept then _ else _) = _
  rw [goes, if_neg notAccept, if_neg notReject, exact]

end Step

variable (packet) in
theorem target_linkInst (total index : Nat) (inst : FilterInst) :
    target packet (linkInst total index inst) =
      if holds packet inst then
        if index = total - 1 then resultAccept else BitVec.ofNat 16 (index + 1)
      else resultReject := rfl

variable (packet) in
theorem target_linkAnyInst (total index : Nat) (inst : FilterInst) :
    target packet (linkAnyInst total index inst) =
      if holds packet inst then resultAccept
      else if index = total - 1 then resultReject else BitVec.ofNat 16 (index + 1) := rfl

variable (packet) in
/-- Among the alternatives, from one of them on. -/
theorem run_anyInsts (limit : filter.total < filterMaxInsts) (rest : List FilterInst) :
    ∀ index inst, filter.anyInsts.drop index = inst :: rest →
      run packet filter.program (rest.length + 1) (filter.insts.length + index) =
        some ((inst :: rest).any (holds packet)) := by
  induction rest with
  | nil =>
    intro index inst here
    obtain ⟨found, -, length⟩ := drop_cons here
    have last : filter.insts.length + index = filter.total - 1 := by
      unfold total
      rw [← length, length_nil]
      omega
    have goes := target_linkAnyInst packet filter.total (filter.insts.length + index) inst
    rw [if_pos last] at goes
    rw [any_cons]
    cases tested : holds packet inst with
    | true =>
      rw [tested] at goes
      exact run_accept (program_anyInst found) goes
    | false =>
      rw [tested] at goes
      exact run_reject (program_anyInst found) goes
  | cons next rest ih =>
    intro index inst here
    obtain ⟨found, later, length⟩ := drop_cons here
    rw [length_cons] at length
    have before : ¬ filter.insts.length + index = filter.total - 1 := by
      unfold total
      omega
    have goes := target_linkAnyInst packet filter.total (filter.insts.length + index) inst
    rw [if_neg before] at goes
    rw [any_cons]
    cases tested : holds packet inst with
    | true =>
      rw [tested] at goes
      exact run_accept (program_anyInst found) goes
    | false =>
      rw [tested] at goes
      have small : filter.insts.length + (index + 1) < filterMaxInsts := by
        unfold total at limit
        omega
      rw [run_next (program_anyInst found) small goes]
      exact ih (index + 1) next later

variable (packet) in
/-- Among the mandatory tests, from one of them on. -/
theorem run_insts (limit : filter.total < filterMaxInsts) (rest : List FilterInst) :
    ∀ index inst, filter.insts.drop index = inst :: rest →
      run packet filter.program (rest.length + 1 + filter.anyInsts.length) index =
        some ((inst :: rest).all (holds packet) &&
          (filter.anyInsts.isEmpty || filter.anyInsts.any (holds packet))) := by
  induction rest with
  | nil =>
    intro index inst here
    obtain ⟨found, -, length⟩ := drop_cons here
    rw [length_nil] at length
    have goes := target_linkInst packet filter.total index inst
    rw [length_nil, Nat.add_comm 1, all_cons]
    cases tested : holds packet inst with
    | false =>
      rw [tested] at goes
      exact run_reject (program_inst found) goes
    | true =>
      rw [tested, if_pos rfl] at goes
      cases alternatives : filter.anyInsts with
      | nil =>
        have last : index = filter.total - 1 := by
          unfold total
          rw [alternatives, length_nil]
          omega
        rw [if_pos last] at goes
        exact run_accept (program_inst found) goes
      | cons first others =>
        have total : filter.total = index + 1 + (others.length + 1) := by
          unfold total
          rw [alternatives, length_cons]
          omega
        rw [if_neg (by omega)] at goes
        have walk := run_anyInsts packet limit others 0 first alternatives
        rw [← length] at walk
        rw [length_cons, run_next (program_inst found) (by omega) goes, walk]
        rfl
  | cons next rest ih =>
    intro index inst here
    obtain ⟨found, later, length⟩ := drop_cons here
    rw [length_cons] at length
    have before : ¬ index = filter.total - 1 := by
      unfold total
      omega
    have goes := target_linkInst packet filter.total index inst
    rw [if_neg before] at goes
    rw [all_cons, Nat.add_right_comm _ 1]
    cases tested : holds packet inst with
    | false =>
      rw [tested] at goes
      exact run_reject (program_inst found) goes
    | true =>
      rw [tested] at goes
      rw [run_next (program_inst found) (by unfold total at limit; omega) goes]
      exact ih (index + 1) next later

theorem program_length_total (filter : Filter) : filter.program.length = filter.total := by
  simp [program, total]

/-- The program accepts what the filter describes. -/
theorem evaluate_program (limit : filter.total < filterMaxInsts) (mandatory : filter.insts ≠ []) :
    evaluate packet filter.program = some (filter.insts.all (holds packet) &&
      (filter.anyInsts.isEmpty || filter.anyInsts.any (holds packet))) := by
  unfold evaluate
  rw [program_length_total, total]
  cases insts : filter.insts with
  | nil => exact absurd insts mandatory
  | cons first rest =>
    exact run_insts packet limit rest 0 first (by rw [insts]; rfl)

end Walk

/-! ## Filters that are built -/

/-- The instructions fit, and there is at least one mandatory test. -/
structure WellBuilt (filter : Filter) : Prop where
  insts : ∀ inst ∈ filter.insts, Fits inst
  anyInsts : ∀ inst ∈ filter.anyInsts, Fits inst
  mandatory : filter.insts ≠ []

variable {filter : Filter}

theorem WellBuilt.add (built : WellBuilt filter) (fieldFits : field.toNat < 2 ^ 11)
    (testFits : test.toNat < 2 ^ 5) (arg : Arg) :
    WellBuilt (filter.add field test arg) where
  insts := by
    intro inst member
    obtain old | new := mem_append.mp member
    · exact built.insts inst old
    · cases mem_singleton.mp new
      exact ⟨fieldFits, testFits⟩
  anyInsts := built.anyInsts
  mandatory := by simp [Filter.add]

theorem wellBuilt_direction (flags : BitVec 64) (fits : field.toNat < 2 ^ 11) :
    WellBuilt (direction flags field) where
  insts := by
    intro inst member
    cases mem_singleton.mp member
    exact ⟨fits, (by decide : testEQ.toNat < 2 ^ 5)⟩
  anyInsts := nofun
  mandatory := nofun

theorem WellBuilt.addFamily (built : WellBuilt filter) (flags : BitVec 64)
    (fits : field.toNat < 2 ^ 11) : WellBuilt (filter.addFamily flags field) := by
  have flagged : WellBuilt { filter with flags := filter.flags ||| flags } :=
    ⟨built.insts, built.anyInsts, built.mandatory⟩
  exact flagged.add fits (by decide) _

theorem WellBuilt.addAny (built : WellBuilt filter) (fieldFits : field.toNat < 2 ^ 11)
    (testFits : test.toNat < 2 ^ 5) (arg : Arg) :
    WellBuilt (filter.addAny field test arg) where
  insts := built.insts
  anyInsts := by
    intro inst member
    obtain old | new := mem_append.mp member
    · exact built.anyInsts inst old
    · cases mem_singleton.mp new
      exact ⟨fieldFits, testFits⟩
  mandatory := built.mandatory

theorem WellBuilt.addDestination (built : WellBuilt filter) (destination : Addr) :
    WellBuilt (filter.addDestination destination) := by
  cases destination with
  | invalid => exact built
  | ipv4 | ipv6 => exact built.addAny (by decide) (by decide) _

theorem WellBuilt.foldl (built : WellBuilt filter) (destinations : List Addr) :
    WellBuilt (destinations.foldl Filter.addDestination filter) := by
  induction destinations generalizing filter with
  | nil => exact built
  | cons destination rest ih => exact ih (built.addDestination destination)

theorem wellBuilt_inboundTo {destinations : List Addr}
    (made : inboundTo destinations = .ok filter) : WellBuilt filter := by
  cases destinations with
  | nil => cases made
  | cons first rest =>
    obtain ⟨-, -, made⟩ := except_bind_ok made
    cases made
    refine WellBuilt.foldl ?_ _
    have start := wellBuilt_direction filterFlagInbound (show fieldInbound.toNat < 2 ^ 11 by decide)
    split
    · exact start.addFamily _ (by decide)
    · exact start.addFamily _ (by decide)

theorem wellBuilt_inboundRange {destinations : List Addr} {protocol low high : BitVec 16}
    (made : inboundRange destinations protocol field low high = .ok filter)
    (protocolFits : protocol.toNat < 2 ^ 11) (fieldFits : field.toNat < 2 ^ 11) :
    WellBuilt filter := by
  obtain ⟨inbound, base, made⟩ := except_bind_ok made
  cases made
  exact (((wellBuilt_inboundTo base).add protocolFits (by decide) _).add fieldFits (by decide)
    _).add fieldFits (by decide) _

/-- A filter that one of the constructors gave. -/
inductive Constructed : Filter → Prop
  | outboundTCP {src dst : AddrPort} {filter : Filter}
      (made : Source.WinDivert.outboundTCP src dst = .ok filter) : Constructed filter
  | inboundTCPPortRange {destinations : List Addr} {low high : BitVec 16} {filter : Filter}
      (made : Source.WinDivert.inboundTCPPortRange destinations low high = .ok filter) :
      Constructed filter
  | inboundUDPPortRange {destinations : List Addr} {low high : BitVec 16} {filter : Filter}
      (made : Source.WinDivert.inboundUDPPortRange destinations low high = .ok filter) :
      Constructed filter
  | inboundICMPEchoReply {destinations : List Addr} {filter : Filter}
      (made : Source.WinDivert.inboundICMPEchoReply destinations = .ok filter) :
      Constructed filter
  | inboundICMPError {destinations : List Addr} {filter : Filter}
      (made : Source.WinDivert.inboundICMPError destinations = .ok filter) : Constructed filter

theorem wellBuilt_outboundTCP {src dst : AddrPort} (made : outboundTCP src dst = .ok filter) :
    WellBuilt filter := by
  have start := wellBuilt_direction filterFlagOutbound (show fieldOutbound.toNat < 2 ^ 11 by decide)
  unfold outboundTCP at made
  split at made <;> cases made
  -- two IPv4 addresses, or two IPv6 ones
  all_goals
    exact (((((start.addFamily _ (by decide)).add (by decide) (by decide) _).add (by decide)
      (by decide) _).add (by decide) (by decide) _).add (by decide) (by decide) _).add (by decide)
      (by decide) _

theorem Constructed.wellBuilt (constructed : Constructed filter) : WellBuilt filter := by
  cases constructed with
  | outboundTCP made => exact wellBuilt_outboundTCP made
  | inboundTCPPortRange made => exact wellBuilt_inboundRange made (by decide) (by decide)
  | inboundUDPPortRange made => exact wellBuilt_inboundRange made (by decide) (by decide)
  | inboundICMPEchoReply made =>
    obtain ⟨inbound, base, made⟩ := except_bind_ok made
    cases made
    have start := wellBuilt_inboundTo base
    split
    · exact (start.add (by decide) (by decide) _).add (by decide) (by decide) _
    · exact (start.add (by decide) (by decide) _).add (by decide) (by decide) _
  | inboundICMPError made =>
    unfold Source.WinDivert.inboundICMPError at made
    split at made
    · exact wellBuilt_inboundRange made (by decide) (by decide)
    · exact wellBuilt_inboundRange made (by decide) (by decide)

/-! ## The encoded program -/

/-- A jump stays inside the program or ends the walk. -/
def Inside (length : Nat) (target : BitVec 16) : Prop :=
  target = resultAccept ∨ target = resultReject ∨ target.toNat < length

theorem program_mem (member : inst ∈ filter.program) :
    ∃ index, index < filter.total ∧
      ((∃ source ∈ filter.insts, inst = linkInst filter.total index source) ∨
        ∃ source ∈ filter.anyInsts, inst = linkAnyInst filter.total index source) := by
  obtain early | late := mem_append.mp member
  · obtain ⟨index, inside, rfl⟩ := mem_mapIdx.mp early
    exact ⟨index, by unfold total; omega, .inl ⟨_, getElem_mem inside, rfl⟩⟩
  · obtain ⟨index, inside, rfl⟩ := mem_mapIdx.mp late
    exact ⟨filter.insts.length + index, by unfold total; omega,
      .inr ⟨_, getElem_mem inside, rfl⟩⟩

theorem inside_next {total index : Nat} (limit : total < filterMaxInsts) (here : index < total)
    (notLast : ¬ index = total - 1) : Inside total (BitVec.ofNat 16 (index + 1)) := by
  obtain ⟨-, -, exact⟩ := target_index (show index + 1 < filterMaxInsts by omega)
  exact .inr (.inr (by omega))

theorem program_inside (limit : filter.total < filterMaxInsts) :
    ∀ inst ∈ filter.program,
      Inside filter.total inst.success ∧ Inside filter.total inst.failure := by
  intro inst member
  obtain ⟨index, here, ⟨source, -, rfl⟩ | ⟨source, -, rfl⟩⟩ := program_mem member
  · refine ⟨?_, .inr (.inl rfl)⟩
    unfold linkInst
    split
    · exact .inl rfl
    · exact inside_next limit here ‹_›
  · refine ⟨.inl rfl, ?_⟩
    unfold linkAnyInst
    split
    · exact .inr (.inl rfl)
    · exact inside_next limit here ‹_›

theorem program_fits (built : WellBuilt filter) : ∀ inst ∈ filter.program, Fits inst := by
  intro inst member
  obtain ⟨index, -, ⟨source, listed, rfl⟩ | ⟨source, listed, rfl⟩⟩ := program_mem member
  · exact ⟨(built.insts source listed).field, (built.insts source listed).test⟩
  · exact ⟨(built.anyInsts source listed).field, (built.anyInsts source listed).test⟩

/-- The encoded program decodes to its instructions with their targets, its jumps stay
inside it, and it accepts a packet exactly if all mandatory tests hold and one of the
alternatives, where there are any. -/
theorem compiled_filter {filter : Filter} (constructed : Constructed filter)
    (limit : filter.total ≤ filterMaxInsts - 1) :
    ∃ program, filter.encode = .ok (program, filter.flags) ∧
      decode program = .ok filter.program ∧
      (∀ inst ∈ filter.program,
        Inside filter.program.length inst.success ∧ Inside filter.program.length inst.failure) ∧
      ∀ packet, ∃ verdict, evaluate packet filter.program = some verdict ∧
        (verdict = true ↔ (∀ inst ∈ filter.insts, holds packet inst = true) ∧
          (filter.anyInsts = [] ∨ ∃ inst ∈ filter.anyInsts, holds packet inst = true)) := by
  have built := constructed.wellBuilt
  have small : filter.total < filterMaxInsts := Nat.lt_of_le_of_lt limit (by decide)
  have some : ¬ filter.total = 0 := by
    have mandatory := List.length_pos_of_ne_nil built.mandatory
    unfold total
    omega
  refine ⟨_, ?_, decode_program (program_fits built), ?_, fun packet => ?_⟩
  · unfold encode
    rw [if_neg some, if_neg (Nat.not_lt.mpr limit)]
  · rw [program_length_total]
    exact program_inside small
  · refine ⟨_, evaluate_program small built.mandatory, ?_⟩
    rw [Bool.and_eq_true, Bool.or_eq_true, List.all_eq_true, List.any_eq_true, List.isEmpty_iff]

/-- Two destinations and a range of ports: a packet for which all tests hold is accepted, and
one for which none does is not. -/
theorem compiled_two_destinations : ∃ filter,
    inboundTCPPortRange [.ipv4 0x0a000001, .ipv4 0x0a000002] 1000 2000 = .ok filter ∧
      ∃ program, filter.encode = .ok (program, filter.flags) ∧
        decode program = .ok filter.program ∧
        evaluate (fun _ _ _ => true) filter.program = some true ∧
        evaluate (fun _ _ _ => false) filter.program = some false := by
  refine ⟨_, rfl, ?_⟩
  obtain ⟨program, encoded, decoded, -, judged⟩ := compiled_filter
    (.inboundTCPPortRange (show inboundTCPPortRange [.ipv4 0x0a000001, .ipv4 0x0a000002] 1000 2000 =
      .ok _ from rfl)) (by decide)
  obtain ⟨accepted, walked, accepts⟩ := judged fun _ _ _ => true
  obtain ⟨refused, walked', refuses⟩ := judged fun _ _ _ => false
  have all : accepted = true := accepts.mpr (by decide)
  have none : refused = false := Bool.eq_false_iff.mpr fun yes =>
    absurd (refuses.mp yes) (by decide)
  exact ⟨program, encoded, decoded, all ▸ walked, none ▸ walked'⟩

/-- The filter without tests rejects every packet. -/
theorem reject_rejects (packet : Packet) : ∃ program, reject.encode = .ok (program, 0) ∧
    decode program = .ok [rejectInst] ∧ evaluate packet [rejectInst] = some false := by
  have fits : ∀ inst ∈ [rejectInst], Fits inst := by
    intro inst member
    cases mem_singleton.mp member
    exact ⟨by decide, by decide⟩
  refine ⟨encodeInst rejectInst, rfl, ?_, ?_⟩
  · have decoded := decode_program fits
    rwa [flatMap_cons] at decoded
  · refine run_reject rfl ?_
    unfold target
    split <;> rfl

end AmneziaBox.Guarantees.DivertFilter
