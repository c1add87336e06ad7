import AmneziaBox.Source.DNS.Client

/-!
# The client subnet of a query

`setClientSubnet` puts the subnet into the OPT record that its search ends with. The search
forgets an OPT record at the next record, unless it has found a subnet option there, and it
replaces one subnet option.
-/
namespace AmneziaBox.Guarantees.ClientSubnet
open Source.Adapter Source.DNS List

/-! ## Statement -/

/-- The record without its options. -/
def bare (record : Record) : Record :=
  match record.data with
  | .opt _ => { record with data := .opt [] }
  | _ => record

/-- `SetClientSubnet` sets the subnet and nothing else. -/
structure Sets (message : Msg) (subnet : Prefix) (result after : Msg) : Prop where
  unmodified : after = message
  elsewhere : { result with extra := message.extra } = message
  records : message.extra.map bare <+: result.extra.map bare
  single : (result.extra.filter isOPT).length = 1
  subnets : (result.extra.flatMap optionsOf).filter isSubnet = [subnetOption subnet]
  options : (result.extra.flatMap optionsOf).filter (!isSubnet ·) =
    (message.extra.flatMap optionsOf).filter (!isSubnet ·)
  read : clientSubnetFromMessage result = .ofSubnet subnet

/-! ## The search -/

variable {subnet : Prefix} {record : Record} {rest : List Record} {options : List EDNS0}

theorem replaceSubnet_spec (subnet : Prefix) (options : List EDNS0) :
    match replaceSubnet subnet options with
    | none => options.any isSubnet = false
    | some replaced => options.any isSubnet = true ∧
        replaced.filter isSubnet = subnetOption subnet :: (options.filter isSubnet).tail ∧
        replaced.filter (!isSubnet ·) = options.filter (!isSubnet ·) := by
  induction options with
  | nil => rfl
  | cons option rest ih =>
    cases option with
    | subnet => exact ⟨rfl, rfl, rfl⟩
    | other code =>
      unfold replaceSubnet
      cases found : replaceSubnet subnet rest with
      | none => simpa [found, isSubnet] using ih
      | some replaced => simpa [found, isSubnet] using ih

/-- What becomes of the records, of their subnet options and of their other options. -/
theorem setSubnetIn_spec (subnet : Prefix) (extra : List Record) :
    (setSubnetIn subnet extra).map bare = extra.map bare ++
      (if findsOPT extra then [] else [{ name := ".", data := .opt [], rrclass := 0 }]) ∧
    ((setSubnetIn subnet extra).flatMap optionsOf).filter isSubnet =
      subnetOption subnet :: ((extra.flatMap optionsOf).filter isSubnet).tail ∧
    ((setSubnetIn subnet extra).flatMap optionsOf).filter (!isSubnet ·) =
      (extra.flatMap optionsOf).filter (!isSubnet ·) := by
  induction extra with
  | nil => exact ⟨rfl, rfl, rfl⟩
  | cons record rest ih =>
    obtain ⟨records, subnets, others⟩ := ih
    unfold setSubnetIn
    split
    · next options data =>
      have spec := replaceSubnet_spec subnet options
      have opt : isOPT record = true := by simp [isOPT, data]
      have own : optionsOf record = options := by simp [optionsOf, data]
      cases found : replaceSubnet subnet options with
      | some replaced =>
        rw [found] at spec
        obtain ⟨some, first, kept⟩ := spec
        have nonempty : options.filter isSubnet ≠ [] := by simpa using some
        refine ⟨by simp [bare, data, findsOPT, opt, own, some], ?_, ?_⟩
        · simp [optionsOf, data, first, tail_append_of_ne_nil nonempty]
        · simp [optionsOf, data, kept]
      | none =>
        rw [found] at spec
        have empty : options.filter isSubnet = [] := by simpa using spec
        cases rest with
        | nil => simp [bare, data, findsOPT, opt, optionsOf, empty, isSubnet, subnetOption]
        | cons => simp [records, subnets, others, findsOPT, own, spec, empty]
    · next other =>
      have opt : isOPT record = false := by unfold isOPT; split <;> simp_all
      have own : optionsOf record = [] := by unfold optionsOf; split <;> simp_all
      simp [records, subnets, others, own, findsOPT, opt]

def subnetOf : EDNS0 → Option (Nat × Addr)
  | .subnet _ sourceNetmask address => some (sourceNetmask, address)
  | .other _ => none

/-- What is read is the first subnet option. -/
theorem clientSubnetFromMessage_eq {message : Msg} (valid : subnet.addr.isValid = true)
    (bits : subnet.bits ≤ subnet.addr.bitLen) (plain : subnet.addr.unmap = subnet.addr)
    (first : (message.extra.flatMap optionsOf).filter isSubnet = subnetOption subnet :: options) :
    clientSubnetFromMessage message = .ofSubnet subnet := by
  obtain ⟨before, after, here, earlier, -⟩ := filter_eq_cons_iff.mp first
  have found : (message.extra.flatMap optionsOf).findSome? subnetOf =
      some (subnet.bits % 256, subnet.addr) := by
    rw [here, findSome?_append, findSome?_eq_none_iff.mpr fun option member => ?_]
    · rfl
    · have := earlier option member
      cases option <;> simp_all [isSubnet, subnetOf]
  have bound : subnet.addr.bitLen ≤ 128 := by cases subnet.addr <;> simp [Addr.bitLen]
  unfold clientSubnetFromMessage
  dsimp only
  split
  · next gone => cases gone.symm.trans found
  · next netmask address here =>
    cases here.symm.trans found
    rw [if_pos valid, plain, Nat.mod_eq_of_lt (by omega), if_pos bits]
    rfl

theorem isOPT_bare : isOPT (bare record) = isOPT record := by
  unfold bare
  split
  · next data => simp [isOPT, data]
  · rfl

/-- Without an OPT record to write to, the records that the result shares are left alone, and with
one they are copied first. -/
theorem setClientSubnetWith_clone {message : Msg} :
    (setClientSubnetWith message subnet true).2 = message := by
  unfold setClientSubnetWith
  split <;> rfl

theorem setClientSubnetWith_result {message : Msg} {clone : Bool} :
    (setClientSubnetWith message subnet clone).1 = setClientSubnet message subnet := by
  unfold setClientSubnetWith
  split
  · rfl
  · cases clone <;> rfl

/-- With at most one OPT record, the law holds if that has at most one subnet option, and one if
other records follow it. -/
theorem sets_iff (message : Msg) (subnet : Prefix) (valid : subnet.addr.isValid = true)
    (bits : subnet.bits ≤ subnet.addr.bitLen) (plain : subnet.addr.unmap = subnet.addr)
    (single : (message.extra.filter isOPT).length ≤ 1) :
    Sets message subnet (setClientSubnetWith message subnet true).1
        (setClientSubnetWith message subnet true).2 ↔
      ((message.extra.flatMap optionsOf).filter isSubnet).length ≤ 1 ∧
      findsOPT message.extra = message.extra.any isOPT := by
  rw [setClientSubnetWith_result, setClientSubnetWith_clone]
  obtain ⟨records, subnets, options⟩ := setSubnetIn_spec subnet message.extra
  have count : ((setSubnetIn subnet message.extra).filter isOPT).length =
      (message.extra.filter isOPT).length + if findsOPT message.extra then 0 else 1 := by
    have same := congrArg (countP isOPT) records
    have through : isOPT ∘ bare = isOPT := funext fun _ => isOPT_bare
    rw [countP_append, countP_map, countP_map, through] at same
    simp only [← countP_eq_length_filter, same]
    split_ifs <;> rfl
  have present : message.extra.any isOPT = true ↔ 0 < (message.extra.filter isOPT).length := by
    simp
  have tail : ((message.extra.flatMap optionsOf).filter isSubnet).tail = [] ↔
      ((message.extra.flatMap optionsOf).filter isSubnet).length ≤ 1 := by
    rw [← length_eq_zero_iff, length_tail]
    omega
  constructor
  · intro sets
    have all := subnets.symm.trans sets.subnets
    have one :
        (message.extra.filter isOPT).length + (if findsOPT message.extra then 0 else 1) = 1 :=
      count.symm.trans sets.single
    refine ⟨tail.mp (cons.inj all).2, Bool.eq_iff_iff.mpr ?_⟩
    rw [present]
    split_ifs at one with finds
    · exact iff_of_true finds (by omega)
    · exact iff_of_false finds (by omega)
  · intro ⟨few, finds⟩
    refine ⟨rfl, rfl, ⟨_, records.symm⟩, count.trans ?_, ?_, options,
      clientSubnetFromMessage_eq valid bits plain subnets⟩
    · split_ifs with there
      · have := present.mp (finds ▸ there)
        omega
      · have := mt present.mpr (finds ▸ there)
        omega
    · exact subnets.trans (by rw [tail.mpr few])

/-- Another record behind the OPT record hides it. -/
theorem hiddenOPT_doubled :
    let message : Msg :=
      { id := 1, extra := [⟨".", .opt [], 1232, 0⟩, ⟨"ns.", .a (.ipv4 1), 1, 60⟩] }
    ((setClientSubnet message ⟨.ipv4 0, 0⟩).extra.filter isOPT).length = 2 := by
  decide

theorem lastOPT_set :
    let message : Msg :=
      { id := 1, extra := [⟨"ns.", .a (.ipv4 1), 1, 60⟩, ⟨".", .opt [], 1232, 0⟩] }
    Sets message ⟨.ipv4 0, 0⟩ (setClientSubnetWith message ⟨.ipv4 0, 0⟩ true).1
      (setClientSubnetWith message ⟨.ipv4 0, 0⟩ true).2 :=
  (sets_iff _ _ rfl (by decide) rfl (by decide)).mpr (by decide)

end AmneziaBox.Guarantees.ClientSubnet
