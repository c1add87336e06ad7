import Mathlib.Data.List.TakeWhile
import AmneziaBox.Guarantees.SniffDecisions

/-!
# Sniffing and the cuts of a stream

`PeekStream` leaves in the metadata what it would leave if the whole stream were in one buffer,
except in three cases: nothing was read from the connection at all; the stream is a BitTorrent
handshake and a cached buffer ends inside its header, of which only one `Read` is made; or it is
an SSH stream and its first line had not arrived when the first eight bytes had.
-/
namespace AmneziaBox.Guarantees.Sniffing
open Library Source.Sniff Sniffer Stream List

section
variable {unpackDomainName unpackRR : Bytes → Nat → Except String Nat}
  {sniffers : List Sniffer} {name : Sniffer} {buffers : List Bytes} {metadata : Metadata}

/-! ## One round -/

variable {pieces : List Bytes} {found : Metadata}

theorem trySniffers_ok
    (done : trySniffers (sniffers.map (run unpackDomainName unpackRR)) metadata pieces =
      .ok found) :
    ∃ name ∈ sniffers, name.run unpackDomainName unpackRR metadata pieces = .ok found := by
  induction sniffers with
  | nil => cases done
  | cons first rest ih =>
    rw [map_cons, trySniffers] at done
    split at done
    · next here =>
      cases done
      exact ⟨first, mem_cons_self, here⟩
    · next err failed =>
      cases others : trySniffers (rest.map (run unpackDomainName unpackRR)) metadata pieces with
      | error errs => rw [others] at done; cases done
      | ok other =>
        rw [others] at done
        obtain ⟨name, member, found⟩ := ih (others.trans done)
        exact ⟨name, mem_cons_of_mem _ member, found⟩

theorem trySniffers_error {errs : List SniffError}
    (failed : trySniffers (sniffers.map (run unpackDomainName unpackRR)) metadata pieces =
      .error errs) (member : name ∈ sniffers) :
    ∃ err ∈ errs, name.run unpackDomainName unpackRR metadata pieces = .error err := by
  induction sniffers generalizing errs with
  | nil => cases member
  | cons first rest ih =>
    rw [map_cons, trySniffers] at failed
    split at failed
    · cases failed
    · next err here =>
      cases others : trySniffers (rest.map (run unpackDomainName unpackRR)) metadata pieces with
      | ok => rw [others] at failed; cases failed
      | error more =>
        rw [others] at failed
        cases failed
        rcases mem_cons.mp member with rfl | later
        · exact ⟨err, mem_cons_self, here⟩
        · obtain ⟨other, listed, same⟩ := ih others later
          exact ⟨other, mem_cons_of_mem _ listed, same⟩

/-! ## The rounds -/

/-- The sniffer recognises the bytes in one buffer. -/
def Recognises (unpackDomainName unpackRR : Bytes → Nat → Except String Nat) (name : Sniffer)
    (whole : Bytes) : Prop :=
  ∃ found, name.run unpackDomainName unpackRR {} [whole] = .ok found

/-- What one sniffer finds in the first round in which it finds something. -/
def firstFound (run : StreamSniffer) (buffers : List Bytes) (metadata : Metadata) :
    Bytes → List Bytes → Metadata
  | _, [] => metadata
  | buffer, read :: reads =>
    match run metadata (buffers ++ [buffer ++ read]) with
    | .ok found => found
    | .error _ => firstFound run buffers metadata (buffer ++ read) reads

/-- Whether a sniffer finds something does not depend on the metadata. -/
theorem run_metadata (other : Metadata)
    (done : name.run unpackDomainName unpackRR metadata pieces = .ok found) :
    ∃ found', name.run unpackDomainName unpackRR other pieces = .ok found' := by
  obtain ⟨α, reader, record, same⟩ := run_eq_sniffer unpackDomainName unpackRR name
  rw [same] at done ⊢
  obtain ⟨value, left, read, -⟩ := sniffer_ok.mp done
  exact ⟨_, sniffer_ok.mpr ⟨value, left, read, rfl⟩⟩

variable {whole : Bytes}

theorem recognises_of_part {rest : Bytes} (arrived : whole = pieces.flatten ++ rest)
    (done : name.run unpackDomainName unpackRR metadata pieces = .ok found) :
    Recognises unpackDomainName unpackRR name whole := by
  obtain ⟨other, again⟩ := (decides_run unpackDomainName unpackRR name).ok arrived done
  exact run_metadata {} again

theorem Recognises.unique {other : Sniffer} (one : Recognises unpackDomainName unpackRR name whole)
    (two : Recognises unpackDomainName unpackRR other whole) : name = other := by
  obtain ⟨_, first⟩ := one
  obtain ⟨_, second⟩ := two
  exact run_unique rfl first second

variable {buffer : Bytes} {reads : List Bytes}

/-- The buffers of a round and what is still to be read. -/
theorem round_flatten (buffers : List Bytes) (buffer read : Bytes) (reads : List Bytes) :
    buffers.flatten ++ buffer ++ (read :: reads).flatten =
      (buffers ++ [buffer ++ read]).flatten ++ reads.flatten := by
  simp

/-- The next round starts with what this one has read. -/
theorem round_next {read : Bytes}
    (arrived : whole = (buffers ++ [buffer ++ read]).flatten ++ reads.flatten) :
    whole = buffers.flatten ++ (buffer ++ read) ++ reads.flatten := by
  rwa [flatten_concat] at arrived

theorem start_flatten (buffers reads : List Bytes) :
    buffers.flatten ++ reads.flatten = buffers.flatten ++ [] ++ reads.flatten := by
  rw [append_nil]

/-- A stream that no sniffer recognises leaves the metadata as it was. -/
theorem peekLoop_unrecognised
    (nobody : ∀ name ∈ sniffers, ¬ Recognises unpackDomainName unpackRR name whole)
    {error : PeekError} (arrived : whole = buffers.flatten ++ buffer ++ reads.flatten) :
    (peekLoop (sniffers.map (run unpackDomainName unpackRR)) buffers metadata buffer error
      reads).metadata = metadata := by
  induction reads generalizing buffer error with
  | nil => rfl
  | cons read reads ih =>
    rw [round_flatten] at arrived
    rw [peekLoop]
    split
    · next found done =>
      obtain ⟨name, member, here⟩ := trySniffers_ok done
      exact absurd (recognises_of_part arrived here) (nobody name member)
    · split
      · exact ih (round_next arrived)
      · rfl

/-- A stream that a sniffer recognises is reported as that sniffer first finds it. -/
theorem peekLoop_recognised (member : name ∈ sniffers)
    (recognised : Recognises unpackDomainName unpackRR name whole) {error : PeekError}
    (arrived : whole = buffers.flatten ++ buffer ++ reads.flatten) :
    (peekLoop (sniffers.map (run unpackDomainName unpackRR)) buffers metadata buffer error
      reads).metadata =
      firstFound (name.run unpackDomainName unpackRR) buffers metadata buffer reads := by
  induction reads generalizing buffer error with
  | nil => rfl
  | cons read reads ih =>
    rw [round_flatten] at arrived
    rw [peekLoop, firstFound]
    split
    · next found done =>
      obtain ⟨other, -, here⟩ := trySniffers_ok done
      obtain rfl := recognised.unique (recognises_of_part arrived here)
      rw [here]
    · next errs failed =>
      obtain ⟨err, listed, here⟩ := trySniffers_error failed member
      -- an error that decides would be the error on the whole stream
      have more : Again err := by
        by_contra decided
        obtain ⟨found, done⟩ := recognised
        obtain ⟨found', done⟩ := run_metadata metadata done
        have refused := (decides_run unpackDomainName unpackRR name).error arrived here decided
        cases refused.symm.trans done
      rw [if_pos (any_eq_true.mpr ⟨err, listed, more⟩), here]
      exact ih (round_next arrived)

/-! ## RDP and DNS -/

/-- A sniffer with a steady reader finds the same in the end, if there is a round. -/
theorem firstFound_steady {α : Type} {reader : SniffReader α} {record : Metadata → α → Metadata}
    (steady : Stream.Steady Again reader)
    (done : sniffer reader record metadata [whole] = .ok found) (some_read : reads ≠ [])
    (arrived : whole = buffers.flatten ++ buffer ++ reads.flatten) :
    firstFound (sniffer reader record) buffers metadata buffer reads = found := by
  obtain ⟨value, left, read_whole, recorded⟩ := sniffer_ok.mp done
  induction reads generalizing buffer with
  | nil => exact absurd rfl some_read
  | cons read reads ih =>
    rw [round_flatten] at arrived
    rw [firstFound]
    split
    · next other here =>
      obtain ⟨value', left', read_part, recorded'⟩ := sniffer_ok.mp here
      obtain ⟨after, again, -⟩ := steady.ok (single_flatten arrived) read_part
      obtain ⟨rfl, -⟩ := Prod.mk.inj (Except.ok.inj (read_whole.symm.trans again))
      exact recorded'.symm.trans recorded
    · next err here =>
      cases reads with
      | nil =>
        have same : (buffers ++ [buffer ++ read]).flatten = [whole].flatten := by
          rw [single_flatten arrived, flatten_nil, append_nil]
        obtain ⟨after, again, -⟩ := steady.ok (same.trans (append_nil _).symm) read_whole
        cases (sniffer_error.mp here).symm.trans again
      | cons next rest =>
        exact ih (cons_ne_nil _ _) (round_next arrived)

end

/-! ## SSH -/

/-- What there is in the first round with enough bytes, or in the last one. -/
def firstSeen (size : Nat) : Bytes → List Bytes → Bytes
  | seen, [] => seen
  | seen, read :: reads =>
    if size ≤ (seen ++ read).length then seen ++ read else firstSeen size (seen ++ read) reads

/-- The version that is read from these bytes. -/
def sshClient (data : Bytes) : Bytes := (readLine data).drop 8

variable {buffers : List Bytes}

theorem firstSeen_isPrefix (size : Nat) (seen : Bytes) (reads : List Bytes) :
    firstSeen size seen reads <+: seen ++ reads.flatten := by
  induction reads generalizing seen with
  | nil => exact prefix_append seen []
  | cons read reads ih =>
    rw [firstSeen, flatten_cons, ← append_assoc]
    split
    · exact prefix_append _ _
    · exact ih (seen ++ read)

/-- Nothing behind the newline changes the line. -/
theorem readLine_of_newline {seen whole : Bytes} (start : seen <+: whole)
    (arrived : newline ∈ seen.take defaultBufSize) : readLine seen = readLine whole := by
  obtain ⟨more, rfl⟩ := start
  have stops : ((seen ++ more).take defaultBufSize).takeWhile (· ≠ newline) =
      (seen.take defaultBufSize).takeWhile (· ≠ newline) := by
    rw [take_append, takeWhile_append, if_neg]
    intro all
    have line : (seen.take defaultBufSize).takeWhile (· ≠ newline) = seen.take defaultBufSize :=
      ( takeWhile_prefix _).eq_of_length all
    have other := mem_takeWhile_imp (line ▸ arrived)
    simp at other
  have still : newline ∈ (seen ++ more).take defaultBufSize := by
    rw [take_append]
    exact mem_append_left _ arrived
  rw [readLine, readLine, if_pos arrived, if_pos still, stops]

theorem sshClient_of_newline {reads : List Bytes}
    (arrived : newline ∈ (firstSeen 8 buffers.flatten reads).take defaultBufSize) :
    sshClient (firstSeen 8 buffers.flatten reads) = sshClient (buffers.flatten ++ reads.flatten) := by
  rw [sshClient, sshClient, readLine_of_newline (firstSeen_isPrefix ..) arrived]

theorem firstFound_ssh {metadata : Metadata} {whole : Bytes} (starts : sshPrefix <+: whole)
    {buffer : Bytes} {reads : List Bytes} (some_read : reads ≠ [])
    (arrived : whole = buffers.flatten ++ buffer ++ reads.flatten) :
    firstFound ssh buffers metadata buffer reads =
      { metadata with
        protocol := protocolSSH
        client := sshClient (firstSeen 8 (buffers.flatten ++ buffer) reads) } := by
  induction reads generalizing buffer with
  | nil => exact absurd rfl some_read
  | cons read reads ih =>
    have joined : (buffers ++ [buffer ++ read]).flatten = buffers.flatten ++ buffer ++ read := by
      simp
    rw [round_flatten] at arrived
    rw [firstFound, firstSeen]
    by_cases enough : 8 ≤ (buffers.flatten ++ buffer ++ read).length
    · have here : sshPrefix <+: (buffers ++ [buffer ++ read]).flatten :=
        prefix_of_prefix_length_le starts (arrived ▸ prefix_append _ _)
          (joined ▸ enough)
      have done : ssh metadata (buffers ++ [buffer ++ read]) = .ok { metadata with
          protocol := protocolSSH
          client := sshClient (buffers ++ [buffer ++ read]).flatten } :=
        sniffer_ok.mpr ⟨_, _, readSSH_of_starts here, rfl⟩
      rw [done, if_pos enough, joined]
    · have short : ∀ found, ssh metadata (buffers ++ [buffer ++ read]) ≠ .ok found := by
        intro found done
        obtain ⟨value, left, part, -⟩ := sniffer_ok.mp done
        exact enough (joined ▸ (starts_of_readSSH part).length_le)
      rw [if_neg enough]
      split
      · next found done => exact absurd done (short found)
      · cases reads with
        | nil =>
          rw [flatten_nil, append_nil, joined] at arrived
          exact absurd (arrived ▸ starts.length_le) enough
        | cons next rest =>
          rw [ih (cons_ne_nil _ _) (round_next arrived), append_assoc]

/-! ## BitTorrent -/

/-- No buffer ends at a position between the two. -/
def EndsOutside (low high : Nat) (buffers : List Bytes) : Prop :=
  ∀ front, front <+: buffers → ¬ (low < front.flatten.length ∧ front.flatten.length < high)

theorem endsOutside_cons {low high : Nat} {piece : Bytes} :
    EndsOutside low high (piece :: buffers) ↔
      ∀ front, front <+: buffers → ¬ (low < piece.length + front.flatten.length ∧
        piece.length + front.flatten.length < high) := by
  constructor
  · intro outside front part
    have whole := outside (piece :: front) ((prefix_cons_inj piece).mpr part)
    rwa [flatten_cons, length_append] at whole
  · intro outside front part
    rcases prefix_cons_iff.mp part with rfl | ⟨rest, rfl, inner⟩
    · exact fun inside => Nat.not_lt_zero _ inside.1
    · rw [flatten_cons, length_append]
      exact outside rest inner

/-- A first buffer that has bytes must reach far enough. -/
theorem endsOutside_long {low high : Nat} {piece : Bytes} (long : low < piece.length) :
    EndsOutside low high (piece :: buffers) ↔ high ≤ piece.length := by
  rw [endsOutside_cons]
  constructor
  · intro outside
    have alone := outside [] nil_prefix
    rw [flatten_nil, length_nil] at alone
    omega
  · intro reaches front part inside
    omega

theorem endsOutside_nil (low high : Nat) : EndsOutside low high [] := by
  intro front part
  rw [prefix_nil.mp part]
  exact fun inside => Nat.not_lt_zero _ inside.1

variable {last : Bytes}

/-- One read takes everything it asks for when no buffer ends before that. -/
theorem readOnce_full_iff {size : Nat} (positive : 0 < size)
    (enough : size ≤ (buffers ++ [last]).flatten.length) :
    (∃ chunk left, readOnce size (buffers ++ [last]) = some (chunk, left) ∧
      size ≤ chunk.length) ↔ EndsOutside 0 size buffers := by
  induction buffers with
  | nil =>
    refine iff_of_true ?_ (endsOutside_nil 0 size)
    rw [nil_append, flatten_cons, flatten_nil, append_nil] at enough
    cases last with
    | nil => exact absurd positive (Nat.not_lt.mpr enough)
    | cons byte last =>
      refine ⟨_, _, rfl, ?_⟩
      rw [length_take]
      exact Nat.le_min.mpr ⟨Nat.le_refl _, enough⟩
  | cons piece buffers ih =>
    cases piece with
    | nil =>
      rw [cons_append] at enough
      rw [endsOutside_cons, cons_append, readOnce, ih enough]
      simp only [length_nil, Nat.zero_add]
      rfl
    | cons byte piece =>
      rw [endsOutside_long (Nat.succ_pos _)]
      constructor
      · rintro ⟨chunk, left, read, full⟩
        cases read
        rw [length_take] at full
        omega
      · intro reaches
        refine ⟨_, _, rfl, ?_⟩
        rw [length_take]
        exact Nat.le_min.mpr ⟨Nat.le_refl _, reaches⟩

theorem readOnce_takeBytes_zero (size : Nat) (pieces : List Bytes) :
    readOnce size (takeBytes 0 pieces).2 = readOnce size pieces := by
  induction pieces with
  | nil => rfl
  | cons piece more ih =>
    cases piece with
    | nil => exact ih
    | cons byte piece => rfl

/-- The same behind the first byte. -/
theorem readOnce_behind_iff {size : Nat} (positive : 0 < size)
    (enough : size + 1 ≤ (buffers ++ [last]).flatten.length) :
    (∃ chunk left, readOnce size (takeBytes 1 (buffers ++ [last])).2 =
      some (chunk, left) ∧ size ≤ chunk.length) ↔ EndsOutside 1 (size + 1) buffers := by
  induction buffers with
  | nil =>
    refine iff_of_true ?_ (endsOutside_nil 1 (size + 1))
    rw [nil_append, flatten_cons, flatten_nil, append_nil] at enough
    cases last with
    | nil => exact absurd enough (Nat.not_succ_le_zero size)
    | cons first last =>
      have reaches : size ≤ last.length := Nat.le_of_succ_le_succ enough
      have more : last ≠ [] := ne_nil_of_length_pos (Nat.lt_of_lt_of_le positive reaches)
      rw [nil_append, takeBytes_one more]
      have whole : size ≤ ([] ++ [last]).flatten.length := by
        rw [nil_append, flatten_cons, flatten_nil, append_nil]
        exact reaches
      exact (readOnce_full_iff positive whole).mpr (endsOutside_nil 0 size)
  | cons piece buffers ih =>
    match piece with
    | [] =>
      rw [cons_append] at enough
      rw [endsOutside_cons]
      simp only [length_nil, Nat.zero_add]
      exact ih enough
    | [first] =>
      rw [cons_append, flatten_cons, length_append, length_singleton] at enough
      have rest : size ≤ (buffers ++ [last]).flatten.length := by omega
      have left : (takeBytes 1 ([first] :: buffers ++ [last])).2 =
          (takeBytes 0 (buffers ++ [last])).2 := rfl
      rw [left, readOnce_takeBytes_zero, readOnce_full_iff positive rest, endsOutside_cons]
      refine forall_congr' fun front => imp_congr_right fun _ => ?_
      rw [length_singleton]
      omega
    | first :: second :: piece =>
      have inside : 1 < (first :: second :: piece).length := Nat.succ_lt_succ (Nat.succ_pos _)
      have left : (takeBytes 1 ((first :: second :: piece) :: buffers ++ [last])).2 =
          (second :: piece) :: (buffers ++ [last]) := rfl
      rw [endsOutside_long inside]
      constructor
      · rintro ⟨chunk, after, read, full⟩
        cases read
        rw [length_take] at full
        simp only [length_cons] at full ⊢
        omega
      · intro reaches
        refine ⟨_, _, rfl, ?_⟩
        rw [length_take]
        simp only [length_cons] at reaches ⊢
        omega

/-- The header is found when it can be read at once. -/
theorem readBitTorrentHeader_iff {pieces : List Bytes}
    (starts : bitTorrentHeader <+: pieces.flatten) :
    (∃ read, readBitTorrentHeader pieces = .ok read) ↔
      ∃ chunk left, readOnce 19 pieces = some (chunk, left) ∧ 19 ≤ chunk.length := by
  unfold readBitTorrentHeader
  cases read : readOnce 19 pieces with
  | none =>
    constructor
    · rintro ⟨_, done⟩
      cases done
    · rintro ⟨_, _, done, -⟩
      cases done
  | some step =>
    obtain ⟨chunk, left⟩ := step
    obtain ⟨cut, short⟩ := readOnce_some read
    have front : chunk <+: bitTorrentHeader := by
      refine prefix_of_prefix_length_le (cut ▸ prefix_append _ _) starts ?_
      rw [bitTorrentHeader_length]
      exact short
    rw [prefix_iff_eq_take] at front
    dsimp only
    rw [if_neg (not_not.mpr front)]
    constructor
    · rintro ⟨_, done⟩
      split at done
      · cases done
      · next full => exact ⟨chunk, left, rfl, Nat.le_of_not_lt full⟩
    · rintro ⟨_, _, same, full⟩
      cases same
      exact ⟨_, if_neg (Nat.not_lt.mpr full)⟩

theorem readBitTorrent_iff (starts : bitTorrentStart <+: (buffers ++ [last]).flatten) :
    (∃ read, readBitTorrent (buffers ++ [last]) = .ok read) ↔ EndsOutside 1 20 buffers := by
  obtain ⟨rest, same⟩ := starts
  have arrived : (buffers ++ [last]).flatten = 19 :: (bitTorrentHeader ++ rest) := same.symm
  have header : bitTorrentHeader <+: (takeBytes 1 (buffers ++ [last])).2.flatten := by
    rw [takeBytes_left, arrived]
    exact prefix_append _ _
  have enough : 19 + 1 ≤ (buffers ++ [last]).flatten.length := by
    rw [arrived, length_cons, length_append, bitTorrentHeader_length]
    omega
  rw [readBitTorrent_cons arrived, if_pos rfl, readBitTorrentHeader_iff header,
    readOnce_behind_iff (by decide) enough]

section
variable {metadata : Metadata} {whole buffer : Bytes} {reads : List Bytes}

theorem firstFound_bitTorrent (outside : EndsOutside 1 20 buffers)
    (starts : bitTorrentStart <+: whole) (some_read : reads ≠ [])
    (arrived : whole = buffers.flatten ++ buffer ++ reads.flatten) :
    firstFound bitTorrent buffers metadata buffer reads =
      { metadata with protocol := protocolBitTorrent } := by
  induction reads generalizing buffer with
  | nil => exact absurd rfl some_read
  | cons read reads ih =>
    rw [round_flatten] at arrived
    rw [firstFound]
    split
    · next found done =>
      obtain ⟨_, _, -, recorded⟩ := sniffer_ok.mp done
      exact recorded.symm
    · next err failed =>
      cases reads with
      | nil =>
        rw [flatten_nil, append_nil] at arrived
        obtain ⟨_, done⟩ := (readBitTorrent_iff (arrived ▸ starts)).mpr outside
        cases (sniffer_error.mp failed).symm.trans done
      | cons next rest =>
        exact ih (cons_ne_nil _ _) (round_next arrived)

theorem firstFound_bitTorrent_cut (cut : ¬ EndsOutside 1 20 buffers) :
    firstFound bitTorrent buffers metadata buffer reads = metadata := by
  induction reads generalizing buffer with
  | nil => rfl
  | cons read reads ih =>
    rw [firstFound]
    split
    · next found done =>
      obtain ⟨_, _, part, -⟩ := sniffer_ok.mp done
      exact absurd ((readBitTorrent_iff (starts_of_readBitTorrent part)).mp ⟨_, part⟩) cut
    · exact ih

end

/-! ## All cuts -/

def Sniffer.protocol : Sniffer → String
  | .bitTorrent => protocolBitTorrent
  | .ssh => protocolSSH
  | .rdp => protocolRDP
  | .streamDomainNameQuery => protocolDNS

theorem Sniffer.protocol_ne (name : Sniffer) : name.protocol ≠ "" := by
  cases name <;> decide

section
variable (unpackDomainName unpackRR : Bytes → Nat → Except String Nat) (sniffers : List Sniffer)
  (buffers reads : List Bytes) {name : Sniffer}

theorem run_protocol {metadata found : Metadata} {pieces : List Bytes}
    (done : name.run unpackDomainName unpackRR metadata pieces = .ok found) :
    found.protocol = name.protocol := by
  unfold Sniffer.run at done
  cases name
  all_goals
    obtain ⟨_, _, -, rfl⟩ := sniffer_ok.mp done
    rfl

/-- Something was read, a BitTorrent header is not cut by the cached buffers, and the version of
an SSH stream is complete when its first eight bytes are there. -/
structure CutsHarmless : Prop where
  read : reads = [] → ∀ name ∈ sniffers,
    ¬ Recognises unpackDomainName unpackRR name (buffers.flatten ++ reads.flatten)
  header : .bitTorrent ∈ sniffers → bitTorrentStart <+: buffers.flatten ++ reads.flatten →
    EndsOutside 1 20 buffers
  line : .ssh ∈ sniffers → sshPrefix <+: buffers.flatten ++ reads.flatten →
    sshClient (firstSeen 8 buffers.flatten reads) = sshClient (buffers.flatten ++ reads.flatten)

variable {unpackDomainName unpackRR sniffers buffers reads} {whole : Bytes}

theorem recognises_bitTorrent (starts : bitTorrentStart <+: whole) :
    Recognises unpackDomainName unpackRR .bitTorrent whole := by
  obtain ⟨left, read⟩ := readBitTorrent_of_starts starts
  have done : bitTorrent {} [whole] = .ok _ := sniffer_ok.mpr ⟨_, _, read, rfl⟩
  exact ⟨_, done⟩

theorem recognises_ssh (starts : sshPrefix <+: whole) :
    Recognises unpackDomainName unpackRR .ssh whole := by
  have single : sshPrefix <+: [whole].flatten := by
    rwa [flatten_cons, flatten_nil, append_nil]
  have done : ssh {} [whole] = .ok _ := sniffer_ok.mpr ⟨_, _, readSSH_of_starts single, rfl⟩
  exact ⟨_, done⟩

/-- With something read, only the sniffer that recognises the stream has a condition. -/
theorem cutsHarmless_iff (member : name ∈ sniffers)
    (recognised : Recognises unpackDomainName unpackRR name (buffers.flatten ++ reads.flatten))
    (some_read : reads ≠ []) :
    CutsHarmless unpackDomainName unpackRR sniffers buffers reads ↔
      (name = .bitTorrent → EndsOutside 1 20 buffers) ∧
        (name = .ssh → sshClient (firstSeen 8 buffers.flatten reads) =
          sshClient (buffers.flatten ++ reads.flatten)) := by
  constructor
  · refine fun harmless => ⟨?_, ?_⟩
    · rintro rfl
      obtain ⟨found, done⟩ := recognised
      change bitTorrent {} _ = _ at done
      obtain ⟨_, _, read, -⟩ := sniffer_ok.mp done
      refine harmless.header member ?_
      simpa only [flatten_cons, flatten_nil, append_nil] using
        starts_of_readBitTorrent read
    · rintro rfl
      obtain ⟨found, done⟩ := recognised
      change ssh {} _ = _ at done
      obtain ⟨_, _, read, -⟩ := sniffer_ok.mp done
      refine harmless.line member ?_
      simpa only [flatten_cons, flatten_nil, append_nil] using
        starts_of_readSSH read
  · rintro ⟨header, line⟩
    refine ⟨fun empty => absurd empty some_read, fun _ starts => ?_, fun _ starts => ?_⟩
    · exact header (recognised.unique (recognises_bitTorrent starts))
    · exact line (recognised.unique (recognises_ssh starts))

theorem peekStream_recognised (member : name ∈ sniffers)
    (recognised : Recognises unpackDomainName unpackRR name (buffers.flatten ++ reads.flatten))
    (metadata : Metadata) :
    (peekStream (sniffers.map (run unpackDomainName unpackRR)) buffers reads
      metadata).metadata =
      firstFound (name.run unpackDomainName unpackRR) buffers metadata [] reads :=
  peekLoop_recognised member recognised (by rw [append_nil])

/-- What one buffer with the whole stream leaves in the metadata. -/
theorem peekStream_single (member : name ∈ sniffers)
    (recognised : Recognises unpackDomainName unpackRR name whole) (metadata : Metadata) :
    name.run unpackDomainName unpackRR metadata [whole] =
      .ok (peekStream (sniffers.map (run unpackDomainName unpackRR)) [] [whole]
        metadata).metadata := by
  have joined : Recognises unpackDomainName unpackRR name
      (([] : List Bytes).flatten ++ [whole].flatten) := by
    rwa [flatten_cons, flatten_nil, append_nil]
  have reported := peekStream_recognised member joined metadata
  obtain ⟨found, done⟩ := recognised
  obtain ⟨other, again⟩ := run_metadata metadata done
  rw [reported, firstFound]
  rw [nil_append, nil_append, again]

end

section
variable {buffers reads : List Bytes} {result : Metadata → Metadata}

theorem bitTorrent_cut_iff
    (found : ∀ metadata, bitTorrent metadata [buffers.flatten ++ reads.flatten] =
      .ok (result metadata)) (some_read : reads ≠ []) :
    (∀ metadata, firstFound bitTorrent buffers metadata [] reads = result metadata) ↔
      EndsOutside 1 20 buffers := by
  have recorded : ∀ metadata : Metadata,
      { metadata with protocol := protocolBitTorrent } = result metadata := by
    intro metadata
    obtain ⟨_, _, -, same⟩ := sniffer_ok.mp (found metadata)
    exact same
  constructor
  · intro same
    by_contra cut
    have unchanged := same {}
    rw [firstFound_bitTorrent_cut cut, ← recorded {}] at unchanged
    exact bitTorrent.protocol_ne (congrArg Metadata.protocol unchanged).symm
  · intro outside metadata
    obtain ⟨_, _, read, -⟩ := sniffer_ok.mp (found metadata)
    have starts := starts_of_readBitTorrent read
    rw [flatten_cons, flatten_nil, append_nil] at starts
    exact (firstFound_bitTorrent outside starts some_read (start_flatten ..)).trans (recorded metadata)

theorem ssh_cut_iff
    (found : ∀ metadata, ssh metadata [buffers.flatten ++ reads.flatten] = .ok (result metadata))
    (some_read : reads ≠ []) :
    (∀ metadata, firstFound ssh buffers metadata [] reads = result metadata) ↔
      sshClient (firstSeen 8 buffers.flatten reads) =
        sshClient (buffers.flatten ++ reads.flatten) := by
  obtain ⟨_, _, read, -⟩ := sniffer_ok.mp (found {})
  have starts := starts_of_readSSH read
  have single : sshPrefix <+: buffers.flatten ++ reads.flatten := by
    rwa [flatten_cons, flatten_nil, append_nil] at starts
  have recorded : ∀ metadata : Metadata, { metadata with
      protocol := protocolSSH
      client := sshClient (buffers.flatten ++ reads.flatten) } = result metadata := by
    intro metadata
    have done : ssh metadata [buffers.flatten ++ reads.flatten] = .ok { metadata with
        protocol := protocolSSH
        client := sshClient [buffers.flatten ++ reads.flatten].flatten } :=
      sniffer_ok.mpr ⟨_, _, readSSH_of_starts starts, rfl⟩
    rw [flatten_cons, flatten_nil, append_nil] at done
    exact Except.ok.inj (done.symm.trans (found metadata))
  simp only [firstFound_ssh single some_read (start_flatten ..), ← recorded, append_nil]
  constructor
  · exact fun same => congrArg Metadata.client (same {})
  · intro same metadata
    rw [same]

end

/-- For every list of the four sniffers and every cut of a stream into cached buffers and
reads: the metadata is left as with the whole stream in one buffer exactly when something was
read, the cached buffers do not cut the header of a BitTorrent handshake, and the version of an
SSH stream is the same in what there was first of at least eight bytes. -/
theorem sniffing_cut_iff (unpackDomainName unpackRR : Bytes → Nat → Except String Nat)
    (sniffers : List Sniffer) (buffers reads : List Bytes) :
    (∀ metadata,
      (peekStream (sniffers.map (run unpackDomainName unpackRR)) buffers reads
        metadata).metadata =
      (peekStream (sniffers.map (run unpackDomainName unpackRR)) []
        [buffers.flatten ++ reads.flatten] metadata).metadata) ↔
      CutsHarmless unpackDomainName unpackRR sniffers buffers reads := by
  by_cases known : ∃ name ∈ sniffers,
      Recognises unpackDomainName unpackRR name (buffers.flatten ++ reads.flatten)
  · obtain ⟨name, member, recognised⟩ := known
    have whole := peekStream_single member recognised
    simp only [peekStream_recognised member recognised]
    by_cases empty : reads = []
    · -- nothing is recorded of a stream that is recognised
      refine iff_of_false (fun same => ?_) fun harmless => harmless.read empty name member recognised
      have protocol := run_protocol unpackDomainName unpackRR (whole {})
      rw [← same {}, empty] at protocol
      exact name.protocol_ne protocol.symm
    · rw [cutsHarmless_iff member recognised empty]
      have arrived := start_flatten buffers reads
      cases name with
      | bitTorrent =>
        refine (bitTorrent_cut_iff whole empty).trans ⟨fun outside => ⟨fun _ => outside, nofun⟩, ?_⟩
        exact fun condition => condition.1 rfl
      | ssh =>
        refine (ssh_cut_iff whole empty).trans ⟨fun same => ⟨nofun, fun _ => same⟩, ?_⟩
        exact fun condition => condition.2 rfl
      | rdp =>
        refine iff_of_true (fun metadata => ?_) ⟨nofun, nofun⟩
        have found : rdp metadata [_] = .ok _ := whole metadata
        exact firstFound_steady steady_readRDP found empty arrived
      | streamDomainNameQuery =>
        refine iff_of_true (fun metadata => ?_) ⟨nofun, nofun⟩
        have found : streamDomainNameQuery unpackDomainName unpackRR metadata [_] = .ok _ :=
          whole metadata
        exact firstFound_steady steady_readStreamQuery found empty arrived
  · have nobody : ∀ name ∈ sniffers,
        ¬ Recognises unpackDomainName unpackRR name (buffers.flatten ++ reads.flatten) :=
      fun name member recognised => known ⟨name, member, recognised⟩
    refine iff_of_true (fun metadata => ?_) ⟨fun _ => nobody, fun member starts => ?_,
      fun member starts => ?_⟩
    · rw [peekStream, peekStream, peekLoop_unrecognised nobody (by rw [append_nil]),
        peekLoop_unrecognised nobody (by simp)]
    · exact absurd (recognises_bitTorrent starts) (nobody _ member)
    · exact absurd (recognises_ssh starts) (nobody _ member)

/-- The version of an SSH client is cut where the first read ends; a BitTorrent handshake is not
recognised when a cached buffer ends in its header. -/
theorem sniffed_by_segment :
    (peekStream [ssh] [] [ascii "SSH-2.0-Open", ascii "SSH_9.6\r\n"] {}).metadata =
        { protocol := "ssh", client := ascii "Open" } ∧
      (peekStream [ssh] [] [ascii "SSH-2.0-OpenSSH_9.6\r\n"] {}).metadata =
        { protocol := "ssh", client := ascii "OpenSSH_9.6" } ∧
      (peekStream [bitTorrent] [19 :: ascii "BitTorrent "] [ascii "protocol"] {}).metadata = {} ∧
      (peekStream [bitTorrent] [] [19 :: ascii "BitTorrent protocol"] {}).metadata =
        { protocol := "bittorrent" } := by
  decide +kernel

end AmneziaBox.Guarantees.Sniffing
