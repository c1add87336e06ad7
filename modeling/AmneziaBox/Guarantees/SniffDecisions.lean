import Mathlib.Data.List.GetD
import AmneziaBox.Source.Sniff.Stream

/-!
# What a stream sniffer decides on a part of the stream

A sniffer that recognises a part of the stream recognises the whole of it, and one that
refuses a part refuses the whole; in between it asks for more data. The RDP and the DNS sniffer
do so however their input is cut. The fifth byte of a stream tells which of the four sniffers can
recognise it, so no two of them do.
-/
namespace AmneziaBox.Guarantees.Sniffing
open Library Source.Sniff List Stream

abbrev Again (err : SniffError) : Prop := err.needsMore = true

/-! ## Steady readers -/

section
variable {α : Type}

theorem steady_orNeedMore {reader : Stream.Reader α}
    (steady : Stream.Steady (fun _ => True) reader) : Stream.Steady Again (orNeedMore reader) where
  ok {pieces longer rest value left} arrived done := by
    unfold orNeedMore at done ⊢
    split at done
    · next read same =>
      cases done
      obtain ⟨after, again, remains⟩ := steady.ok arrived same
      exact ⟨after, by rw [again], remains⟩
    · cases done
  error {pieces longer rest err} arrived failed decided := by
    unfold orNeedMore at failed
    split at failed
    · cases failed
    · cases failed
      exact absurd rfl decided

theorem steady_require (valid : Bool) : Stream.Steady Again (require valid) := by
  unfold require
  split
  · exact steady_pure ()
  · exact steady_throw _

theorem steady_expectByte (value : Byte) : Stream.Steady Again (expectByte value) :=
  (steady_orNeedMore steady_byte).bind fun _ => steady_require _

theorem steady_readUint16 : Stream.Steady Again readUint16 :=
  (steady_orNeedMore (steady_full 2)).bind fun _ => steady_pure _

theorem steady_readRDP : Stream.Steady Again readRDP := by
  refine (steady_expectByte _).bind fun _ => (steady_expectByte _).bind fun _ => ?_
  refine steady_readUint16.bind fun _ => (steady_require _).bind fun _ => ?_
  refine (steady_expectByte _).bind fun _ => (steady_expectByte _).bind fun _ => ?_
  refine (steady_orNeedMore (steady_discard 5)).bind fun _ => ?_
  refine (steady_expectByte _).bind fun _ => ?_
  exact (steady_orNeedMore steady_byte).bind fun _ => steady_expectByte _

end

/-! ## The query header -/

variable {header : Bytes}

theorem uint16At_append (rest : Bytes) {index : Nat} (inside : index + 2 ≤ header.length) :
    uint16At (header ++ rest) index = uint16At header index := by
  have enough : 2 ≤ (header.drop index).length := by
    rw [length_drop]
    omega
  rw [uint16At, uint16At, drop_append_of_le_length (by omega),
    take_append_of_le_length enough]

variable {rest : Bytes}

/-- A check does not look beyond its byte. -/
theorem headerChecks_append {check : Nat × (Bytes → Bool)} (member : check ∈ headerChecks)
    (inside : check.1 < header.length) : check.2 (header ++ rest) = check.2 header := by
  simp only [headerChecks, mem_cons, not_mem_nil, or_false] at member
  rcases member with rfl | rfl | rfl | rfl | rfl
  · simp only [getD_append _ _ _ _ inside]
  · simp only [getD_append _ _ _ _ inside]
  · simp [uint16At_append rest (Nat.succ_le_of_lt inside)]
  · simp only [uint16At_append rest (Nat.succ_le_of_lt inside)]
  · simp [uint16At_append rest (Nat.succ_le_of_lt inside)]

variable {err : SniffError}

theorem verify_error (failed : verifyDNSQueryHeader header = .error err) (rest : Bytes) :
    err = .invalid ∧ verifyDNSQueryHeader (header ++ rest) = .error .invalid := by
  unfold verifyDNSQueryHeader at failed ⊢
  split at failed
  · next bad =>
    refine ⟨(Except.error.inj failed).symm, if_pos ?_⟩
    obtain ⟨check, member, holds⟩ := any_eq_true.mp bad
    simp only [Bool.and_eq_true, decide_eq_true_eq] at holds
    refine any_eq_true.mpr ⟨check, member, ?_⟩
    simp only [Bool.and_eq_true, decide_eq_true_eq]
    refine ⟨Nat.lt_of_lt_of_le holds.1 ?_, ?_⟩
    · rw [length_append]
      exact Nat.le_add_right _ _
    · rw [headerChecks_append member holds.1]
      exact holds.2
  · cases failed

section
variable {unpackDomainName unpackRR : Bytes → Nat → Except String Nat}

theorem domainNameQuery_of_verify {packet : Bytes}
    (failed : verifyDNSQueryHeader packet = .error .invalid) :
    domainNameQuery unpackDomainName unpackRR packet = .error .invalid := by
  unfold domainNameQuery
  split
  · rfl
  · rw [failed]
    rfl

variable {length : Nat} {pieces : List Bytes}

theorem readQuery_of_enough (enough : length ≤ pieces.flatten.length) :
    readQuery unpackDomainName unpackRR length pieces =
      (domainNameQuery unpackDomainName unpackRR (pieces.flatten.take length)).map fun _ =>
        ((), (Stream.takeBytes length pieces).2) := by
  have taken := takeBytes_taken length pieces
  unfold readQuery
  dsimp only
  rw [taken, if_pos]
  rw [length_take, Nat.min_eq_left enough]

theorem readQuery_of_short (short : pieces.flatten.length < length) :
    readQuery unpackDomainName unpackRR length pieces =
      (verifyDNSQueryHeader pieces.flatten).bind fun _ =>
        .error (.needMoreData (some (if pieces.flatten.isEmpty then "EOF" else "unexpected EOF"))) := by
  have taken : (takeBytes length pieces).1 = pieces.flatten := by
    rw [takeBytes_taken, take_of_length_le short.le]
  unfold readQuery
  dsimp only
  rw [taken, if_neg (Nat.not_le.mpr short)]

/-- A header that is wrong in a part of the message is wrong in the message. -/
theorem readQuery_of_verify {header : Bytes} (part : header <+: pieces.flatten.take length)
    (failed : verifyDNSQueryHeader header = .error .invalid) :
    readQuery unpackDomainName unpackRR length pieces = .error .invalid := by
  obtain ⟨rest, same⟩ := part
  have wrong := (verify_error failed rest).2
  rw [same] at wrong
  rcases Nat.lt_or_ge pieces.flatten.length length with short | enough
  · rw [readQuery_of_short short]
    rw [take_of_length_le short.le] at wrong
    rw [wrong]
    rfl
  · rw [readQuery_of_enough enough, domainNameQuery_of_verify wrong]
    rfl

theorem steady_readQuery (length : Nat) :
    Stream.Steady Again (readQuery unpackDomainName unpackRR length) where
  ok {pieces longer rest value left} arrived done := by
    rcases Nat.lt_or_ge pieces.flatten.length length with short | enough
    · rw [readQuery_of_short short] at done
      cases verified : verifyDNSQueryHeader pieces.flatten with
      | ok | error => rw [verified] at done; cases done
    · have more : length ≤ longer.flatten.length := by
        rw [arrived, length_append]
        omega
      rw [readQuery_of_enough enough] at done
      rw [readQuery_of_enough more, arrived, take_append_of_le_length enough]
      cases query : domainNameQuery unpackDomainName unpackRR (pieces.flatten.take length) with
      | error err => rw [query] at done; cases done
      | ok =>
        rw [query] at done
        obtain ⟨-, rfl⟩ := Prod.mk.inj (Except.ok.inj done)
        refine ⟨_, rfl, ?_⟩
        rw [takeBytes_left, takeBytes_left, arrived,
          drop_append_of_le_length enough]
  error {pieces longer rest err} arrived failed decided := by
    rcases Nat.lt_or_ge pieces.flatten.length length with short | enough
    · rw [readQuery_of_short short] at failed
      cases verified : verifyDNSQueryHeader pieces.flatten with
      | ok =>
        rw [verified] at failed
        cases failed
        exact absurd rfl decided
      | error wrong =>
        rw [verified] at failed
        cases failed
        obtain ⟨rfl, -⟩ := verify_error verified []
        refine readQuery_of_verify ?_ verified
        rw [arrived, take_append, take_of_length_le short.le]
        exact prefix_append _ _
    · have more : length ≤ longer.flatten.length := by
        rw [arrived, length_append]
        omega
      rw [readQuery_of_enough enough] at failed
      rw [readQuery_of_enough more, arrived, take_append_of_le_length enough]
      cases query : domainNameQuery unpackDomainName unpackRR (pieces.flatten.take length) with
      | ok => rw [query] at failed; cases failed
      | error wrong =>
        rw [query] at failed
        cases failed
        rfl

theorem steady_readStreamQuery :
    Stream.Steady Again (readStreamQuery unpackDomainName unpackRR) := by
  refine steady_readUint16.bind fun _ => (steady_require _).bind fun _ => ?_
  exact steady_readQuery _

end

/-! ## SSH -/

variable {bytes : Bytes}

variable {pieces : List Bytes}

theorem readSSH_of_starts (starts : sshPrefix <+: pieces.flatten) :
    readSSH pieces = .ok ((readLine pieces.flatten).drop 8, []) := by
  have peeked : pieces.flatten.take sshPrefix.length = sshPrefix :=
    (prefix_iff_eq_take.mp starts).symm
  unfold readSSH
  dsimp only
  rw [peeked, if_neg (fun wrong => wrong rfl), if_neg (lt_irrefl _)]

theorem starts_of_readSSH {read : Bytes × List Bytes} (done : readSSH pieces = .ok read) :
    sshPrefix <+: pieces.flatten := by
  unfold readSSH at done
  dsimp only at done
  split at done
  · cases done
  · next same =>
    split at done
    · cases done
    · next enough =>
      rw [not_not] at same
      rw [take_of_length_le (Nat.le_of_not_lt enough)] at same
      exact prefix_iff_eq_take.mpr same.symm

theorem readSSH_error {longer : List Bytes} (arrived : longer.flatten = pieces.flatten ++ rest)
    (failed : readSSH pieces = .error err) (decided : ¬ Again err) :
    readSSH longer = .error err := by
  unfold readSSH at failed
  dsimp only at failed
  split at failed
  · next wrong =>
    cases failed
    unfold readSSH
    refine if_pos fun same => wrong ?_
    have whole : longer.flatten.take sshPrefix.length <+: sshPrefix :=
      prefix_iff_eq_take.mpr same
    rw [arrived, take_append] at whole
    exact prefix_iff_eq_take.mp ((prefix_append _ _).trans whole)
  · split at failed
    · cases failed
      exact absurd rfl decided
    · cases failed

/-! ## BitTorrent -/

/-- What the stream of a BitTorrent handshake starts with. -/
def bitTorrentStart : Bytes := 19 :: bitTorrentHeader

theorem bitTorrentHeader_length : bitTorrentHeader.length = 19 := rfl

theorem readOnce_some {size : Nat} {left : List Bytes} {chunk : Bytes}
    (read : Stream.readOnce size pieces = some (chunk, left)) :
    pieces.flatten = chunk ++ left.flatten ∧ chunk.length ≤ size := by
  induction pieces with
  | nil => cases read
  | cons piece more ih =>
    cases piece with
    | nil => exact ih read
    | cons byte piece =>
      cases read
      refine ⟨?_, length_take_le _ _⟩
      rw [flatten_cons, flatten_cons, ← append_assoc, take_append_drop]

theorem readBitTorrent_nil (empty : pieces.flatten = []) :
    readBitTorrent pieces = .error (.needMoreData (some "EOF")) := by
  have first : orNeedMore readByte pieces = .error (.needMoreData (some "EOF")) := by
    rw [orNeedMore, readByte_end empty]
  change (orNeedMore readByte pieces >>= _) = _
  rw [first]
  rfl

theorem readBitTorrent_cons {first : Byte} (arrived : pieces.flatten = first :: rest) :
    readBitTorrent pieces =
      if first = 19 then readBitTorrentHeader (Stream.takeBytes 1 pieces).2
      else .error .invalid := by
  have taken : Stream.takeBytes 1 pieces = ([first], (Stream.takeBytes 1 pieces).2) := by
    refine Prod.ext ?_ rfl
    rw [Stream.takeBytes_taken, arrived]
    rfl
  have read : orNeedMore Stream.readByte pieces = .ok (first, (Stream.takeBytes 1 pieces).2) := by
    rw [orNeedMore, Stream.readByte, taken]
  change (orNeedMore Stream.readByte pieces >>= _) = _
  rw [read]
  by_cases known : first = 19
  · rw [known]
    rfl
  · rw [if_neg known]
    have refused : require (first == 19) = throw .invalid := by
      rw [beq_false_of_ne known]
      rfl
    change ((require (first == 19) >>= fun _ => readBitTorrentHeader) _) = _
    rw [refused]
    rfl

variable {read : Unit × List Bytes}

theorem readBitTorrentHeader_ok (done : readBitTorrentHeader pieces = .ok read) :
    bitTorrentHeader <+: pieces.flatten := by
  unfold readBitTorrentHeader at done
  split at done
  · cases done
  · next chunk left found =>
    obtain ⟨split_here, short⟩ := readOnce_some found
    split at done
    · cases done
    · next same =>
      split at done
      · cases done
      · next enough =>
        rw [not_not, take_of_length_le
          (bitTorrentHeader_length ▸ Nat.le_of_not_lt enough)] at same
        rw [split_here, same]
        exact prefix_append _ _

/-- A part of the header that is wrong is wrong in any part that is longer. -/
theorem readBitTorrentHeader_invalid (failed : readBitTorrentHeader pieces = .error err)
    (decided : ¬ Again err) :
    err = .invalid ∧ ∃ chunk, chunk <+: pieces.flatten ∧ chunk.length ≤ 19 ∧
      ¬ chunk <+: bitTorrentHeader := by
  unfold readBitTorrentHeader at failed
  split at failed
  · cases failed
    exact absurd rfl decided
  · next chunk left found =>
    obtain ⟨split_here, short⟩ := readOnce_some found
    split at failed
    · next wrong =>
      refine ⟨(Except.error.inj failed).symm, chunk, ?_, short, fun same => wrong ?_⟩
      · rw [split_here]
        exact prefix_append _ _
      · exact prefix_iff_eq_take.mp same
    · split at failed
      · cases failed
        exact absurd rfl decided
      · cases failed

theorem readOnce_cons (size : Nat) (byte : Byte) (bytes : Bytes) :
    Stream.readOnce size [byte :: bytes] =
      some ((byte :: bytes).take size, [(byte :: bytes).drop size]) := rfl

/-- The whole header in one piece is found. -/
theorem readBitTorrentHeader_of_starts (starts : bitTorrentHeader <+: bytes) :
    readBitTorrentHeader [bytes] = .ok ((), [bytes.drop 19]) := by
  have taken : bytes.take 19 = bitTorrentHeader := by
    rw [← bitTorrentHeader_length]
    exact (prefix_iff_eq_take.mp starts).symm
  cases bytes with
  | nil => exact absurd (congrArg length taken) (by rw [bitTorrentHeader_length]; decide)
  | cons byte bytes =>
    unfold readBitTorrentHeader
    rw [readOnce_cons, taken]
    dsimp only
    rw [if_neg (fun wrong => wrong rfl), if_neg (by rw [bitTorrentHeader_length]; exact lt_irrefl 19)]

theorem readBitTorrentHeader_of_wrong {chunk : Bytes} (part : chunk <+: bytes)
    (short : chunk.length ≤ 19) (wrong : ¬ chunk <+: bitTorrentHeader) :
    readBitTorrentHeader [bytes] = .error .invalid := by
  cases bytes with
  | nil =>
    rw [prefix_nil] at part
    exact absurd (part ▸ nil_prefix) wrong
  | cons byte bytes =>
    unfold readBitTorrentHeader
    rw [readOnce_cons]
    refine if_pos fun same => wrong ?_
    have inside : chunk <+: (byte :: bytes).take 19 :=
      prefix_take_iff.mpr ⟨part, short⟩
    exact inside.trans (prefix_iff_eq_take.mpr same)

theorem takeBytes_one {first : Byte} (more : rest ≠ []) :
    (Stream.takeBytes 1 [first :: rest]).2 = [rest] := by
  have inside : 1 < (first :: rest).length :=
    Nat.succ_lt_succ (length_pos_iff.mpr more)
  rw [takeBytes, if_pos inside]
  rfl

theorem readBitTorrent_of_starts (starts : bitTorrentStart <+: bytes) :
    ∃ left, readBitTorrent [bytes] = .ok ((), left) := by
  obtain ⟨rest, rfl⟩ := starts
  have more : bitTorrentHeader ++ rest ≠ [] := by
    intro empty
    have short := congrArg length empty
    rw [length_append, bitTorrentHeader_length, length_nil] at short
    omega
  have arrived : [bitTorrentStart ++ rest].flatten = 19 :: (bitTorrentHeader ++ rest) :=
    append_nil _
  refine ⟨[(bitTorrentHeader ++ rest).drop 19], (readBitTorrent_cons arrived).trans ?_⟩
  rw [bitTorrentStart]
  exact readBitTorrentHeader_of_starts (prefix_append _ _)

theorem starts_of_readBitTorrent (done : readBitTorrent pieces = .ok read) :
    bitTorrentStart <+: pieces.flatten := by
  cases arrived : pieces.flatten with
  | nil => cases (readBitTorrent_nil arrived).symm.trans done
  | cons first rest =>
    rw [readBitTorrent_cons arrived] at done
    split at done
    · next known =>
      have header := readBitTorrentHeader_ok done
      rw [takeBytes_left, arrived] at header
      rw [known]
      exact (prefix_cons_inj 19).mpr header
    · cases done

theorem readBitTorrent_error {whole : Bytes} (arrived : whole = pieces.flatten ++ rest)
    (failed : readBitTorrent pieces = .error err) (decided : ¬ Again err) :
    readBitTorrent [whole] = .error err := by
  cases part : pieces.flatten with
  | nil =>
    rw [readBitTorrent_nil part] at failed
    cases failed
    exact absurd rfl decided
  | cons first more =>
    rw [part] at arrived
    have single : [whole].flatten = first :: (more ++ rest) := (append_nil _).trans arrived
    rw [readBitTorrent_cons part] at failed
    rw [readBitTorrent_cons single]
    split at failed
    · next known =>
      obtain ⟨rfl, chunk, inside, short, wrong⟩ := readBitTorrentHeader_invalid failed decided
      rw [takeBytes_left, part] at inside
      have within : chunk <+: more ++ rest := inside.trans (prefix_append _ _)
      have nonempty : more ++ rest ≠ [] := by
        intro empty
        rw [empty, prefix_nil] at within
        exact wrong (within ▸ nil_prefix)
      rw [if_pos known, arrived]
      exact (congrArg readBitTorrentHeader (takeBytes_one nonempty)).trans
        (readBitTorrentHeader_of_wrong within short wrong)
    · next unknown =>
      rw [if_neg unknown]
      exact failed

/-! ## The four sniffers -/

inductive Sniffer where
  | bitTorrent
  | ssh
  | rdp
  | streamDomainNameQuery
  deriving DecidableEq, Repr

section
variable {α β : Type} {reader : SniffReader α} {record : Metadata → α → Metadata}
  {metadata found : Metadata}

theorem bind_ok {next : α → SniffReader β} {read : β × List Bytes}
    (done : (reader >>= next) pieces = .ok read) :
    ∃ value left, reader pieces = .ok (value, left) ∧ next value left = .ok read := by
  change (reader pieces >>= fun step => next step.1 step.2) = _ at done
  cases first : reader pieces with
  | error err =>
    rw [first] at done
    cases done
  | ok step =>
    rw [first] at done
    exact ⟨step.1, step.2, rfl, done⟩

theorem require_ok {valid : Bool} (done : require valid pieces = .ok read) :
    valid = true ∧ read.2 = pieces := by
  cases valid with
  | false => cases done
  | true =>
    cases done
    exact ⟨rfl, rfl⟩

theorem orNeedMore_ok {plain : Stream.Reader α} {read : α × List Bytes}
    (done : orNeedMore plain pieces = .ok read) : plain pieces = .ok read := by
  unfold orNeedMore at done
  split at done
  · next same => exact same.trans (congrArg _ (Except.ok.inj done))
  · cases done

theorem expectByte_ok {value : Byte} (done : expectByte value pieces = .ok read) :
    pieces.flatten = value :: read.2.flatten := by
  obtain ⟨byte, left, first, checked⟩ := bind_ok done
  obtain ⟨same, remains⟩ := require_ok checked
  have taken := orNeedMore_ok first
  unfold Stream.readByte at taken
  split at taken
  · next head more rest cut =>
    cases taken
    have front := Stream.takeBytes_taken 1 pieces
    have back := Stream.takeBytes_left 1 pieces
    rw [cut] at front back
    rw [remains, back, ← eq_of_beq same]
    cases whole : pieces.flatten with
    | nil => rw [whole] at front; cases front
    | cons first rest =>
      rw [whole] at front
      rw [(cons_eq_cons.mp front).1]
      rfl
  · cases taken

theorem readUint16_ok {read : Nat × List Bytes} (done : readUint16 pieces = .ok read) :
    pieces.flatten.drop 2 = read.2.flatten ∧ 2 ≤ pieces.flatten.length := by
  obtain ⟨bytes, left, first, last⟩ := bind_ok done
  cases last
  have taken := orNeedMore_ok first
  unfold Stream.readFull at taken
  dsimp only at taken
  split at taken
  · next enough =>
    cases taken
    refine ⟨(Stream.takeBytes_left 2 pieces).symm, ?_⟩
    rw [Stream.takeBytes_taken, length_take] at enough
    omega
  · split at taken <;> cases taken

/-- The fifth byte of what the RDP sniffer recognises is the length of a COTP header. -/
theorem readRDP_fifth (done : readRDP pieces = .ok read) : pieces.flatten[4]? = some 14 := by
  obtain ⟨_, one, version, done⟩ := bind_ok done
  obtain ⟨_, two, reserved, done⟩ := bind_ok done
  obtain ⟨length, three, sized, done⟩ := bind_ok done
  obtain ⟨_, four, nineteen, done⟩ := bind_ok done
  obtain ⟨_, five, cotp, -⟩ := bind_ok done
  have last : three.flatten = 14 :: five.flatten := by
    rw [← (require_ok nineteen).2]
    exact expectByte_ok cotp
  have dropped := (readUint16_ok sized).1
  rw [expectByte_ok version, expectByte_ok reserved]
  change two.flatten[2]? = _
  rw [← head?_drop, dropped]
  exact congrArg head? last

section
variable {unpackDomainName unpackRR : Bytes → Nat → Except String Nat}

/-- The flags of a query that is verified: no response, a standard opcode, not authoritative
and not truncated. -/
theorem verify_flags {header : Bytes} (long : 2 < header.length)
    (verified : verifyDNSQueryHeader header = .ok ()) :
    header.getD 2 0 ≠ 0x54 ∧ header.getD 2 0 ≠ 0x32 ∧ header.getD 2 0 ≠ 14 := by
  unfold verifyDNSQueryHeader at verified
  split at verified
  · cases verified
  · next fine =>
    simp only [headerChecks, any_cons, Bool.or_eq_true, Bool.and_eq_true, decide_eq_true_eq,
      not_or, not_and, bne_iff_ne, ne_eq, not_not] at fine
    obtain ⟨⟨⟨-, opcode⟩, -⟩, -⟩ := fine.1 long
    refine ⟨fun same => ?_, fun same => ?_, fun same => ?_⟩ <;>
      · rw [same] at opcode
        revert opcode
        decide

theorem domainNameQuery_ok {packet : Bytes}
    (done : domainNameQuery unpackDomainName unpackRR packet = .ok ()) :
    dnsHeaderSize ≤ packet.length ∧ verifyDNSQueryHeader packet = .ok () := by
  unfold domainNameQuery at done
  split at done
  · cases done
  · next long =>
    refine ⟨Nat.le_of_not_lt long, ?_⟩
    cases verified : verifyDNSQueryHeader packet with
    | ok => rfl
    | error err => rw [verified] at done; cases done

/-- The fifth byte of a recognised stream query holds the flags of the query. -/
theorem readStreamQuery_fifth (done : readStreamQuery unpackDomainName unpackRR pieces = .ok read) :
    ∃ byte, pieces.flatten[4]? = some byte ∧ byte ≠ 0x54 ∧ byte ≠ 0x32 ∧ byte ≠ 14 := by
  obtain ⟨length, two, sized, done⟩ := bind_ok done
  obtain ⟨_, after, checked, queried⟩ := bind_ok done
  have same : after = two := (require_ok checked).2
  rw [same] at queried
  obtain ⟨dropped, -⟩ := readUint16_ok sized
  rcases Nat.lt_or_ge two.flatten.length length with short | enough
  · rw [readQuery_of_short short] at queried
    cases verified : verifyDNSQueryHeader two.flatten with
    | ok | error => rw [verified] at queried; cases queried
  · rw [readQuery_of_enough enough] at queried
    cases query : domainNameQuery unpackDomainName unpackRR (two.flatten.take length) with
    | error => rw [query] at queried; cases queried
    | ok =>
      obtain ⟨long, verified⟩ := domainNameQuery_ok query
      have within : 2 < (two.flatten.take length).length := Nat.lt_of_lt_of_le (by decide) long
      refine ⟨(two.flatten.take length).getD 2 0, ?_, verify_flags within verified⟩
      have inside : 2 < two.flatten.length :=
        Nat.lt_of_lt_of_le within (length_take_le' _ _)
      have limit : 2 < length := Nat.lt_of_lt_of_le within (length_take_le _ _)
      have shifted : pieces.flatten[4]? = (pieces.flatten.drop 2)[2]? := by
        rw [getElem?_drop]
      rw [shifted, dropped, getD_eq_getElem _ _ within, getElem_take,
        getElem?_eq_getElem inside]

end

theorem sniffer_ok : sniffer reader record metadata pieces = .ok found ↔
    ∃ value left, reader pieces = .ok (value, left) ∧ record metadata value = found := by
  unfold sniffer
  cases read : reader pieces with
  | error err =>
    constructor
    · intro done
      cases done
    · rintro ⟨_, _, done, -⟩
      cases done
  | ok step =>
    constructor
    · exact fun done => ⟨step.1, step.2, rfl, Except.ok.inj done⟩
    · rintro ⟨value, left, done, same⟩
      cases done
      exact congrArg _ same

theorem sniffer_error {err : SniffError} : sniffer reader record metadata pieces = .error err ↔
    reader pieces = .error err := by
  unfold sniffer
  cases read : reader pieces with
  | error other => simp [Except.map]
  | ok step => simp [Except.map]

end

/-- What a sniffer decides on a part of the stream it decides on the whole. -/
structure Decides (run : StreamSniffer) : Prop where
  ok : ∀ {pieces whole rest metadata found}, whole = pieces.flatten ++ rest →
    run metadata pieces = .ok found → ∃ other, run metadata [whole] = .ok other
  error : ∀ {pieces whole rest metadata err}, whole = pieces.flatten ++ rest →
    run metadata pieces = .error err → ¬ Again err → run metadata [whole] = .error err

theorem single_flatten {whole : Bytes} (arrived : whole = pieces.flatten ++ rest) :
    [whole].flatten = pieces.flatten ++ rest :=
  (append_nil whole).trans arrived

theorem decides_of_steady {α : Type} {reader : SniffReader α} {record : Metadata → α → Metadata}
    (steady : Stream.Steady Again reader) : Decides (sniffer reader record) where
  ok arrived done := by
    obtain ⟨value, left, read, -⟩ := sniffer_ok.mp done
    obtain ⟨after, again, -⟩ := steady.ok (single_flatten arrived) read
    exact ⟨_, sniffer_ok.mpr ⟨value, after, again, rfl⟩⟩
  error arrived failed decided :=
    sniffer_error.mpr (steady.error (single_flatten arrived) (sniffer_error.mp failed) decided)

theorem decides_ssh : Decides ssh where
  ok arrived done := by
    obtain ⟨value, left, read, -⟩ := sniffer_ok.mp done
    have starts := (starts_of_readSSH read).trans (single_flatten arrived ▸ prefix_append _ _)
    exact ⟨_, sniffer_ok.mpr ⟨_, _, readSSH_of_starts starts, rfl⟩⟩
  error arrived failed decided :=
    sniffer_error.mpr (readSSH_error (single_flatten arrived) (sniffer_error.mp failed) decided)

theorem decides_bitTorrent : Decides bitTorrent where
  ok {pieces whole _ _ _} arrived done := by
    obtain ⟨value, left, read, -⟩ := sniffer_ok.mp done
    have starts : bitTorrentStart <+: whole :=
      (starts_of_readBitTorrent read).trans (arrived ▸ prefix_append _ _)
    obtain ⟨after, again⟩ := readBitTorrent_of_starts starts
    exact ⟨_, sniffer_ok.mpr ⟨_, _, again, rfl⟩⟩
  error arrived failed decided :=
    sniffer_error.mpr (readBitTorrent_error arrived (sniffer_error.mp failed) decided)

section
variable (unpackDomainName unpackRR : Bytes → Nat → Except String Nat)

def Sniffer.run : Sniffer → StreamSniffer
  | .bitTorrent => Source.Sniff.bitTorrent
  | .ssh => Source.Sniff.ssh
  | .rdp => Source.Sniff.rdp
  | .streamDomainNameQuery => Source.Sniff.streamDomainNameQuery unpackDomainName unpackRR

theorem decides_run (name : Sniffer) : Decides (name.run unpackDomainName unpackRR) := by
  cases name with
  | bitTorrent => exact decides_bitTorrent
  | ssh => exact decides_ssh
  | rdp =>
    show Decides rdp
    exact decides_of_steady steady_readRDP
  | streamDomainNameQuery =>
    show Decides (streamDomainNameQuery unpackDomainName unpackRR)
    exact decides_of_steady steady_readStreamQuery

theorem run_eq_sniffer (name : Sniffer) :
    ∃ (α : Type) (reader : SniffReader α) (record : Metadata → α → Metadata),
      name.run unpackDomainName unpackRR = sniffer reader record := by
  cases name with
  | bitTorrent =>
    exact ⟨_, readBitTorrent, fun metadata _ => { metadata with protocol := protocolBitTorrent },
      rfl⟩
  | ssh =>
    exact ⟨_, readSSH, fun metadata client => { metadata with protocol := protocolSSH, client }, rfl⟩
  | rdp => exact ⟨_, readRDP, fun metadata _ => { metadata with protocol := protocolRDP }, rfl⟩
  | streamDomainNameQuery =>
    exact ⟨_, readStreamQuery unpackDomainName unpackRR,
      fun metadata _ => { metadata with protocol := protocolDNS }, rfl⟩

/-- The only sniffer that can recognise a stream with this fifth byte. -/
def ofFifth (byte : Byte) : Sniffer :=
  if byte = 0x54 then .bitTorrent
  else if byte = 0x32 then .ssh
  else if byte = 14 then .rdp
  else .streamDomainNameQuery

variable {unpackDomainName unpackRR}

theorem run_fifth {name : Sniffer} {metadata found : Metadata} {pieces : List Bytes}
    (done : name.run unpackDomainName unpackRR metadata pieces = .ok found) :
    pieces.flatten[4]?.map ofFifth = some name := by
  unfold Sniffer.run at done
  cases name with
  | bitTorrent =>
    obtain ⟨value, left, read, -⟩ := sniffer_ok.mp done
    obtain ⟨rest, same⟩ := starts_of_readBitTorrent read
    rw [← same]
    rfl
  | ssh =>
    obtain ⟨value, left, read, -⟩ := sniffer_ok.mp done
    obtain ⟨rest, same⟩ := starts_of_readSSH read
    rw [← same]
    rfl
  | rdp =>
    obtain ⟨value, left, read, -⟩ := sniffer_ok.mp done
    rw [readRDP_fifth read]
    rfl
  | streamDomainNameQuery =>
    obtain ⟨value, left, read, -⟩ := sniffer_ok.mp done
    obtain ⟨byte, fifth, first, second, third⟩ := readStreamQuery_fifth read
    rw [fifth, Option.map_some, ofFifth, if_neg first, if_neg second, if_neg third]

/-- Two sniffers that recognise the same bytes are the same. -/
theorem run_unique {one two : Sniffer} {metadata other found found' : Metadata}
    {pieces pieces' : List Bytes} (same : pieces.flatten = pieces'.flatten)
    (first : one.run unpackDomainName unpackRR metadata pieces = .ok found)
    (second : two.run unpackDomainName unpackRR other pieces' = .ok found') : one = two := by
  have fifth := run_fifth first
  rw [same, run_fifth second] at fifth
  exact (Option.some.inj fifth).symm

end

end AmneziaBox.Guarantees.Sniffing
