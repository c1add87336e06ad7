import Mathlib.Algebra.BigOperators.Ring.List
import AmneziaBox.Guarantees.RuleSetRoundTrip
import AmneziaBox.Source.SRS.Mmap

/-!
# The layout of a mapped rule-set

`WriteMmap` lays the file out from sizes that it computes before it writes anything, and
`ReadMmap` takes slices out of raw memory at the offsets it finds. Both agree: every blob
is where the table has it, starts at a multiple of eight, and has the size of its bytes.
-/
namespace AmneziaBox.Guarantees.MappedLayout
open Source.Adapter Source.Rule Source.SRS Library RuleSetItems MmapReader Segment List Blob

variable {order : Endian}

/-! ## Arrays -/

section Arrays
variable {α : Type} (cell : Cell α)

theorem encoded_length (values : List α) :
    (values.flatMap cell.encode).length = values.length * cell.size := by
  induction values with
  | nil => simp
  | cons value rest ih =>
    rw [flatMap_cons, length_append, ih, cell.encode_length, length_cons]
    ring

variable {cell} in
theorem elements_encoded {values : List α}
    (exact : ∀ value ∈ values, cell.decode (cell.encode value) = value) (rest : Bytes) :
    elements cell values.length (values.flatMap cell.encode ++ rest) = values := by
  induction values with
  | nil => rfl
  | cons value values ih =>
    have size := cell.encode_length value
    rw [length_cons, elements, flatMap_cons, append_assoc, ← size, take_left,
      drop_left, exact value mem_cons_self,
      ih fun value member => exact value (mem_cons_of_mem _ member)]

theorem writeMmapArray_length (values : List α) :
    (writeMmapArray cell values).length = alignMmapOffset (values.length * cell.size) := by
  have enough := le_alignUp (show 0 < 8 by decide) (values.length * cell.size)
  unfold writeMmapArray
  simp only [length_append, length_replicate, encoded_length]
  exact Nat.add_sub_of_le enough

variable {cell} in
theorem reads_mmapArray {values : List α}
    (exact : ∀ value ∈ values, cell.decode (cell.encode value) = value) :
    Reads (mmapArray cell values.length) (writeMmapArray cell values) values := by
  intro rest
  have length := writeMmapArray_length cell values
  have whole : values.length * cell.size ≤ (writeMmapArray cell values ++ rest).length := by
    rw [length_append, length]
    exact Nat.le_trans (le_alignUp (by decide) _) (Nat.le_add_right _ _)
  unfold mmapArray
  rw [if_neg (Nat.not_lt.mpr ((Nat.le_div_iff_mul_le cell.size_pos).mpr whole)), ← length]
  rw [if_neg (by rw [length_append]; omega), drop_left]
  unfold writeMmapArray
  rw [append_assoc, elements_encoded exact]

end Arrays

theorem uint64_exact (value : BitVec 64) :
    (uint64Cell order).decode ((uint64Cell order).encode value) = value := by
  change BitVec.ofNat 64 (order.get (order.put 8 value.toNat)) = value
  rw [order.get_put value.isLt, BitVec.ofNat_toNat, BitVec.setWidth_eq]

theorem int32_exact (value : BitVec 32) :
    (int32Cell order).decode ((int32Cell order).encode value) = value := by
  change BitVec.ofNat 32 (order.get (order.put 4 value.toNat)) = value
  rw [order.get_put value.isLt, BitVec.ofNat_toNat, BitVec.setWidth_eq]

variable (order) in
theorem range4_exact {range : Interval} (ordered : range.lo ≤ range.hi)
    (bounded : range.hi < 2 ^ 32) :
    (range4Cell order).decode ((range4Cell order).encode range) = range := by
  change Interval.mk (order.get ((order.put 4 range.lo ++ order.put 4 range.hi).take 4))
    (order.get ((order.put 4 range.lo ++ order.put 4 range.hi).drop 4)) = range
  rw [take_left' (order.put_length _ _), drop_left' (order.put_length _ _),
    order.get_put (by omega), order.get_put bounded]

theorem range6_exact {range : Interval} (ordered : range.lo ≤ range.hi)
    (bounded : range.hi < 2 ^ 128) : range6Cell.decode (range6Cell.encode range) = range := by
  change Interval.mk (ofBigEndian ((bigEndian 16 range.lo ++ bigEndian 16 range.hi).take 16))
    (ofBigEndian ((bigEndian 16 range.lo ++ bigEndian 16 range.hi).drop 16)) = range
  rw [take_left' (bigEndian_length _ _), drop_left' (bigEndian_length _ _),
    ofBigEndian_bigEndian, ofBigEndian_bigEndian, Nat.mod_eq_of_lt (by omega),
    Nat.mod_eq_of_lt (by omega)]

/-! ## Blobs -/

theorem writeMmapUint64_length (values : List Nat) :
    (writeMmapUint64 order values).length = values.length * 8 := by
  induction values with
  | nil => rfl
  | cons value rest ih =>
    unfold writeMmapUint64 at ih ⊢
    rw [flatMap_cons, length_append, order.put_length, length_cons]
    omega

variable (order) in
/-- The size that is announced for a blob is the number of its bytes. -/
theorem write_length (blob : Blob) : (blob.write order).length = blob.size := by
  have double (count : Nat) : alignMmapOffset (count * 8) = count * 8 :=
    alignUp_of_dvd (by decide) (Nat.dvd_mul_left _ _)
  have quad (count : Nat) : alignMmapOffset (count * 32) = count * 32 :=
    alignUp_of_dvd (by decide) (Nat.dvd_mul_left_of_dvd (by decide) _)
  cases blob with
  | succinct matcher =>
    simp only [Blob.write, Blob.size, length_append, writeMmapUint64_length,
      writeMmapArray_length, uint64Cell, int32Cell, byteCell, double, Nat.mul_one, length_cons,
      length_nil]
    omega
  | ipSet set =>
    simp only [Blob.write, Blob.size, length_append, writeMmapUint64_length,
      writeMmapArray_length, range4Cell, range6Cell, double, quad, length_cons,
      length_nil]
    omega

theorem size_aligned (blob : Blob) : 8 ∣ blob.size := by
  have aligned (offset : Nat) : 8 ∣ alignMmapOffset offset := alignUp_dvd 8 offset
  cases blob with
  | succinct matcher =>
    have labels := aligned matcher.labels.length
    have ranks := aligned (matcher.ranks.length * 4)
    have selects := aligned (matcher.selects.length * 4)
    rw [size]
    omega
  | ipSet set =>
    rw [size]
    omega

theorem reads_uint64 {value : Nat} (fits : value < 2 ^ 64) :
    Reads (readUint64 order) (order.put 8 value) value := by
  have read := (reads_full (order.put 8 value)).map order.get
  rw [order.put_length, order.get_put fits] at read
  exact read

/-- A blob that is long enough is parsed. -/
theorem reads_truncated {α : Type} {size : Nat} {parse : Reader α} {bytes : Bytes} {value : α}
    (enough : size ≤ bytes.length) (reads : Reads parse bytes value) :
    Reads (truncated size parse) bytes value := by
  intro rest
  unfold truncated
  rw [if_neg (by rw [length_append]; omega), reads rest]

theorem reads_succinct {matcher : Succinct} (small : (Blob.succinct matcher).size < 2 ^ 64) :
    Reads (succinct order) ((Blob.succinct matcher).write order) matcher := by
  have length := write_length order (.succinct matcher)
  rw [Blob.size] at small length
  have labels := le_alignUp (show 0 < 8 by decide) matcher.labels.length
  have ranks := le_alignUp (show 0 < 8 by decide) (matcher.ranks.length * 4)
  have selects := le_alignUp (show 0 < 8 by decide) (matcher.selects.length * 4)
  unfold alignMmapOffset at small
  refine reads_truncated (by omega) ?_
  simp only [Blob.write, writeMmapUint64, flatMap_cons, flatMap_nil, append_nil,
    append_assoc]
  refine (reads_uint64 (by omega)).bind ((reads_uint64 (by omega)).bind
    ((reads_uint64 (by omega)).bind ((reads_uint64 (by omega)).bind
      ((reads_uint64 (by omega)).bind ?_))))
  refine (reads_mmapArray fun value _ => uint64_exact value).bind
    ((reads_mmapArray fun value _ => uint64_exact value).bind
      ((reads_mmapArray fun _ _ => rfl).bind
        ((reads_mmapArray fun value _ => int32_exact value).bind ?_)))
  exact (reads_mmapArray fun value _ => int32_exact value).map
    (Succinct.mk matcher.leaves matcher.labelBitmap matcher.labels matcher.ranks)

theorem reads_ipRanges {set : IPSet} (wellFormed : set.WellFormed) :
    Reads (ipRanges order) ((Blob.ipSet set).write order)
      (set.ranges4, set.ranges6) := by
  have length := write_length order (.ipSet set)
  have counted := wellFormed.counted
  have four (range : Interval) (member : range ∈ set.ranges4) :=
    range4_exact order ((wellFormed.ascending .v4).ordered range member)
      (wellFormed.bounded .v4 range member)
  have six (range : Interval) (member : range ∈ set.ranges6) :=
    range6_exact ((wellFormed.ascending .v6).ordered range member)
      (wellFormed.bounded .v6 range member)
  rw [Blob.size] at length
  refine reads_truncated (by omega) ?_
  simp only [Blob.write, writeMmapUint64, flatMap_cons, flatMap_nil, append_nil,
    append_assoc]
  refine (reads_uint64 (by omega)).bind ((reads_uint64 (by omega)).bind
    ((reads_mmapArray four).bind ?_))
  exact (reads_mmapArray six).map (Prod.mk set.ranges4)

/-! ## The table -/

variable (order) in
theorem uint64At_put {value : Nat} (fits : value < 2 ^ 64) (before after : Bytes) :
    uint64At order before.length (before ++ (order.put 8 value ++ after)) = value := by
  have found := slice_append before (order.put 8 value) after
  rw [order.put_length] at found
  unfold uint64At
  rw [found, order.get_put fits]

/-- What an entry announces: the kind of a blob and where it is. -/
def entryAt (order : Endian) (entry : Bytes) : Nat × Segment :=
  (uint64At order 0 entry, ⟨uint64At order 8 entry, uint64At order 16 entry⟩)

variable (order) in
theorem entryAt_written {kind offset size : Nat} (kindFits : kind < 2 ^ 64)
    (offsetFits : offset < 2 ^ 64) (sizeFits : size < 2 ^ 64) (rest : Bytes) :
    entryAt order (writeMmapUint64 order [kind, offset, size] ++ rest) = (kind, ⟨offset, size⟩) := by
  have first := uint64At_put order kindFits [] (order.put 8 offset ++ (order.put 8 size ++ rest))
  have second := uint64At_put order offsetFits (order.put 8 kind) (order.put 8 size ++ rest)
  have third := uint64At_put order sizeFits (order.put 8 kind ++ order.put 8 offset) rest
  simp only [length_append, order.put_length, append_assoc, length_nil,
    nil_append] at first second third
  simp only [entryAt, writeMmapUint64, flatMap_cons, flatMap_nil, append_nil,
    append_assoc]
  rw [first, second, third]

theorem kind_lt (blob : Blob) : blob.kind < 2 ^ 64 := by
  cases blob with
  | succinct matcher => exact (by decide : mmapBlobSuccinct < 2 ^ 64)
  | ipSet set => exact (by decide : mmapBlobIPSet < 2 ^ 64)

theorem writeBlobTable_length (offset : Nat) (blobs : List Blob) :
    (writeBlobTable order offset blobs).length = blobs.length * mmapBlobEntrySize := by
  induction blobs generalizing offset with
  | nil => simp [writeBlobTable]
  | cons blob rest ih =>
    rw [writeBlobTable, length_append, writeMmapUint64_length, ih, length_cons,
      length_cons, length_cons, length_cons, length_nil]
    unfold mmapBlobEntrySize
    omega

/-- All entries of a table. -/
def entries (order : Endian) : Nat → Bytes → List (Nat × Segment)
  | 0, _ => []
  | count + 1, table => entryAt order table :: entries order count (table.drop mmapBlobEntrySize)

/-- Where the blobs are, if the first one is at the offset. -/
def placed (offset : Nat) (blobs : List Blob) : List Segment :=
  place offset (blobs.map Blob.size)

theorem entries_written {offset : Nat} {blobs : List Blob}
    (fits : offset + (blobs.map Blob.size).sum < 2 ^ 64) (rest : Bytes) :
    entries order blobs.length (writeBlobTable order offset blobs ++ rest) =
      (blobs.map Blob.kind).zip (placed offset blobs) := by
  induction blobs generalizing offset with
  | nil => rfl
  | cons blob blobs ih =>
    rw [map_cons, sum_cons] at fits
    have entry := entryAt_written order (kind_lt blob) (show offset < 2 ^ 64 by omega)
      (show blob.size < 2 ^ 64 by omega) (writeBlobTable order (offset + blob.size) blobs ++ rest)
    have skip : (writeMmapUint64 order [blob.kind, offset, blob.size]).length =
        mmapBlobEntrySize := writeMmapUint64_length _
    rw [length_cons, entries, writeBlobTable, append_assoc, entry, ← skip,
      drop_left, ih (by omega)]
    rfl

theorem writeBlobTable_append (offset : Nat) (earlier later : List Blob) :
    writeBlobTable order offset (earlier ++ later) = writeBlobTable order offset earlier ++
      writeBlobTable order (offset + (earlier.map Blob.size).sum) later := by
  induction earlier generalizing offset with
  | nil => rfl
  | cons blob earlier ih =>
    rw [cons_append, writeBlobTable, writeBlobTable, ih, append_assoc, map_cons,
      sum_cons, Nat.add_assoc]

/-! ## The file -/

theorem blobs_length (blobs : List Blob) :
    (blobs.flatMap (Blob.write order)).length = (blobs.map Blob.size).sum := by
  rw [length_flatMap]
  exact congrArg sum (map_congr_left fun blob _ => write_length order blob)

section Image
variable (order : Endian) (version : Byte) (rules : Bytes) (blobs : List Blob)

def tableOffset : Nat := alignMmapOffset (mmapHeaderSize + rules.length)

def firstBlob : Nat := tableOffset rules + blobs.length * mmapBlobEntrySize

def headerBytes : Bytes :=
  mmapMagic ++ (order.put 4 mmapFormatVersion ++
    writeMmapUint64 order [version.toNat, rules.length, tableOffset rules, blobs.length])

def paddingBytes : Bytes :=
  List.replicate (tableOffset rules - (mmapHeaderSize + rules.length)) 0

/-- Everything before the table. -/
def frontBytes : Bytes := headerBytes order version rules blobs ++ (rules ++ paddingBytes rules)

theorem image_eq : mmapImage order version rules blobs =
    headerBytes order version rules blobs ++ (rules ++ (paddingBytes rules ++
      (writeBlobTable order (firstBlob rules blobs) blobs ++
        blobs.flatMap (Blob.write order)))) := rfl

theorem headerBytes_length : (headerBytes order version rules blobs).length = mmapHeaderSize := by
  simp only [headerBytes, length_append, writeMmapUint64_length, order.put_length]
  rfl

theorem frontBytes_length : (frontBytes order version rules blobs).length = tableOffset rules := by
  have enough : mmapHeaderSize + rules.length ≤ tableOffset rules := le_alignUp (by decide) _
  simp only [frontBytes, length_append, headerBytes_length, paddingBytes,
    length_replicate]
  omega

theorem image_table : mmapImage order version rules blobs =
    frontBytes order version rules blobs ++
      (writeBlobTable order (firstBlob rules blobs) blobs ++ blobs.flatMap (Blob.write order)) := by
  simp [image_eq, frontBytes]

theorem image_length : (mmapImage order version rules blobs).length =
    firstBlob rules blobs + (blobs.map Blob.size).sum := by
  rw [image_table, length_append, frontBytes_length, length_append,
    writeBlobTable_length, blobs_length, firstBlob, Nat.add_assoc]

variable {order version rules blobs}

/-- The fields of the header are found at their places. -/
theorem image_header (fits : (mmapImage order version rules blobs).length < 2 ^ 64) :
    uint64At order 8 (mmapImage order version rules blobs) = version.toNat ∧
      uint64At order 16 (mmapImage order version rules blobs) = rules.length ∧
      uint64At order 24 (mmapImage order version rules blobs) = tableOffset rules ∧
      uint64At order 32 (mmapImage order version rules blobs) = blobs.length := by
  have enough : mmapHeaderSize + rules.length ≤ tableOffset rules := le_alignUp (by decide) _
  have version256 := version.isLt
  rw [image_length] at fits
  unfold firstBlob mmapBlobEntrySize at fits
  let later := rules ++ (paddingBytes rules ++
    (writeBlobTable order (firstBlob rules blobs) blobs ++ blobs.flatMap (write order)))
  let magic := mmapMagic ++ order.put 4 mmapFormatVersion
  have magic8 : magic.length = 8 := by
    simp only [magic, length_append, order.put_length]
    rfl
  have first := uint64At_put order (show version.toNat < 2 ^ 64 by omega) magic
    (order.put 8 rules.length ++ (order.put 8 (tableOffset rules) ++
      (order.put 8 blobs.length ++ later)))
  have second := uint64At_put order (show rules.length < 2 ^ 64 by omega)
    (magic ++ order.put 8 version.toNat)
    (order.put 8 (tableOffset rules) ++ (order.put 8 blobs.length ++ later))
  have third := uint64At_put order (show tableOffset rules < 2 ^ 64 by omega)
    (magic ++ (order.put 8 version.toNat ++ order.put 8 rules.length))
    (order.put 8 blobs.length ++ later)
  have fourth := uint64At_put order (show blobs.length < 2 ^ 64 by omega)
    (magic ++ (order.put 8 version.toNat ++ (order.put 8 rules.length ++
      order.put 8 (tableOffset rules)))) later
  simp only [length_append, order.put_length, magic8, append_assoc]
    at first second third fourth
  have whole : mmapImage order version rules blobs = magic ++ (order.put 8 version.toNat ++
      (order.put 8 rules.length ++ (order.put 8 (tableOffset rules) ++
        (order.put 8 blobs.length ++ later)))) := by
    simp [image_eq, headerBytes, writeMmapUint64, magic, later]
  rw [whole]
  exact ⟨first, second, third, fourth⟩

theorem mmapSection_append {before : Bytes} (part after : Bytes) (aligned : 8 ∣ before.length) :
    mmapSection (before ++ (part ++ after)) before.length part.length = .ok part := by
  have inside : ¬ (before.length % 8 ≠ 0 ∨ before.length > (before ++ (part ++ after)).length ∨
      part.length > (before ++ (part ++ after)).length - before.length) := by
    simp only [length_append]
    omega
  unfold mmapSection
  rw [if_neg inside, slice_append]

/-- The reader of a written file. -/
def imageReader (order : Endian) (version : Byte) (rules : Bytes) (blobs : List Blob) :
    MmapReader :=
  ⟨mmapImage order version rules blobs, writeBlobTable order (firstBlob rules blobs) blobs,
    blobs.length⟩

variable {earlier later : List Blob} {blob : Blob}

variable (order) in
theorem entryAt_table {offset : Nat}
    (fits : offset + ((earlier ++ blob :: later).map Blob.size).sum < 2 ^ 64) :
    let entry := (writeBlobTable order offset (earlier ++ blob :: later)).drop
      (earlier.length * mmapBlobEntrySize)
    mmapBlobEntrySize ≤ entry.length ∧
      entryAt order entry = (blob.kind, ⟨offset + (earlier.map size).sum, blob.size⟩) := by
  rw [map_append, sum_append, map_cons, sum_cons] at fits
  rw [writeBlobTable_append, drop_left' (writeBlobTable_length _ _), writeBlobTable]
  constructor
  · rw [length_append, writeMmapUint64_length]
    exact Nat.le_add_right _ _
  · exact entryAt_written order (kind_lt blob) (by omega) (by omega) _

theorem firstBlob_aligned (rules : Bytes) (blobs : List Blob) : 8 ∣ firstBlob rules blobs := by
  have table : 8 ∣ tableOffset rules := alignUp_dvd 8 _
  unfold firstBlob mmapBlobEntrySize
  omega

theorem mmapSection_blob (here : blobs = earlier ++ blob :: later) :
    mmapSection (mmapImage order version rules blobs)
      (firstBlob rules blobs + (earlier.map Blob.size).sum) blob.size = .ok (blob.write order) := by
  let before := frontBytes order version rules blobs ++
    (writeBlobTable order (firstBlob rules blobs) blobs ++ earlier.flatMap (write order))
  have length : before.length = firstBlob rules blobs + (earlier.map size).sum := by
    rw [length_append, length_append, frontBytes_length, writeBlobTable_length,
      blobs_length, firstBlob, Nat.add_assoc]
  have whole : mmapImage order version rules blobs =
      before ++ (blob.write order ++ later.flatMap (write order)) := by
    have split : blobs.flatMap (write order) = earlier.flatMap (write order) ++
        (blob.write order ++ later.flatMap (write order)) := by
      rw [here, flatMap_append, flatMap_cons]
    rw [image_table, split]
    simp [before]
  have aligned : 8 ∣ before.length := by
    rw [length]
    refine Nat.dvd_add (firstBlob_aligned rules blobs) (dvd_sum fun size member => ?_)
    obtain ⟨blob, -, rfl⟩ := mem_map.mp member
    exact size_aligned blob
  have found := mmapSection_append (blob.write order) (later.flatMap (write order)) aligned
  rwa [length, write_length, ← whole] at found

/-- The number of a blob leads to its bytes. -/
theorem reads_blob (fits : (mmapImage order version rules blobs).length < 2 ^ 64)
    (here : blobs = earlier ++ blob :: later) :
    Reads ((imageReader order version rules blobs).blob order blob.kind)
      (writeUvarint earlier.length) (blob.write order) := by
  have count : blobs.length = earlier.length + (later.length + 1) := by
    rw [here, length_append, length_cons]
  rw [image_length] at fits
  obtain ⟨enough, entry⟩ := entryAt_table order
    (show firstBlob rules blobs + ((earlier ++ blob :: later).map size).sum < 2 ^ 64 from
      here ▸ fits)
  obtain ⟨kind, rest⟩ := Prod.mk.inj entry
  obtain ⟨offset, size⟩ := mk.inj rest
  rw [← here] at enough kind offset size
  unfold firstBlob mmapBlobEntrySize at fits
  refine (reads_uvarint (show earlier.length < 2 ^ 64 by omega)).bind_nil ?_
  have inside : ¬ earlier.length ≥ (imageReader order version rules blobs).blobCount := by
    change ¬ earlier.length ≥ blobs.length
    omega
  have found : (imageReader order version rules blobs).blobAt order earlier.length blob.kind =
      .ok (blob.write order) := by
    have unwrapped : earlier.length * mmapBlobEntrySize < 2 ^ 64 := by
      unfold mmapBlobEntrySize
      omega
    unfold MmapReader.blobAt
    rw [if_neg inside, Nat.mod_eq_of_lt unwrapped]
    dsimp only [imageReader]
    rw [if_neg (Nat.not_lt.mpr (le_trans (by decide) enough)), kind, if_neg (not_not.mpr rfl),
      if_neg (Nat.not_lt.mpr enough), offset, size, mmapSection_blob here]
  rw [found]
  exact Reads.pure _

/-! ## Sections -/

/-- The blobs as the table of a file announces them. -/
def announced (order : Endian) (file : Bytes) : List (Nat × Segment) :=
  entries order (uint64At order 32 file) (file.drop (uint64At order 24 file))

/-- The header, the rules, the table and the blobs of a file. -/
def sections (order : Endian) (file : Bytes) : List Segment :=
  [⟨0, mmapHeaderSize⟩, ⟨mmapHeaderSize, uint64At order 16 file⟩,
    ⟨uint64At order 24 file, uint64At order 32 file * mmapBlobEntrySize⟩] ++
  (announced order file).map Prod.snd

/-- The entry of a table is that of the blob, whose bytes are where the entry has them. -/
structure Announces (order : Endian) (file : Bytes) (entry : Nat × Segment) (blob : Blob) :
    Prop where
  kind : entry.1 = blob.kind
  size : entry.2.length = (blob.write order).length
  bytes : entry.2.slice file = blob.write order

/-- What the table of a file announces is there, and nothing overlaps. -/
structure LaidOut (order : Endian) (file : Bytes) (blobs : List Blob) : Prop where
  kept : List.Forall₂ (Announces order file) (announced order file) blobs
  aligned : ∀ entry ∈ announced order file, 8 ∣ entry.2.offset
  apart : (sections order file).Pairwise Segment.Apart
  inside : ∀ segment ∈ sections order file, segment.stop ≤ file.length

theorem announced_image (fits : (mmapImage order version rules blobs).length < 2 ^ 64) :
    announced order (mmapImage order version rules blobs) =
      (blobs.map Blob.kind).zip (placed (firstBlob rules blobs) blobs) := by
  obtain ⟨-, -, offset, count⟩ := image_header fits
  unfold announced
  rw [offset, count, image_table, drop_left' (frontBytes_length _ _ _ _)]
  rw [image_length] at fits
  exact entries_written fits _

theorem sections_image (fits : (mmapImage order version rules blobs).length < 2 ^ 64) :
    sections order (mmapImage order version rules blobs) =
      [⟨0, mmapHeaderSize⟩, ⟨mmapHeaderSize, rules.length⟩,
        ⟨tableOffset rules, blobs.length * mmapBlobEntrySize⟩] ++
      placed (firstBlob rules blobs) blobs := by
  obtain ⟨-, length, offset, count⟩ := image_header fits
  unfold sections
  rw [length, offset, count, announced_image fits, map_snd_zip (by simp [placed])]

theorem announces_zip {file : Bytes} {segments : List Segment}
    (each : List.Forall₂ (fun segment blob => segment.length = (Blob.write order blob).length ∧
      segment.slice file = blob.write order) segments blobs) :
    List.Forall₂ (Announces order file) ((blobs.map Blob.kind).zip segments) blobs := by
  induction each with
  | nil => exact .nil
  | cons first _ ih => exact .cons ⟨rfl, first.1, first.2⟩ ih

theorem announces_image :
    List.Forall₂ (Announces order (mmapImage order version rules blobs))
      ((blobs.map Blob.kind).zip (placed (firstBlob rules blobs) blobs)) blobs := by
  have sizes : (blobs.map (write order)).map List.length = blobs.map size := by
    rw [List.map_map]
    exact List.map_congr_left fun blob _ => write_length order blob
  have length : (frontBytes order version rules blobs ++
      writeBlobTable order (firstBlob rules blobs) blobs).length = firstBlob rules blobs := by
    rw [List.length_append, frontBytes_length, writeBlobTable_length, firstBlob]
  have slices := slice_place (frontBytes order version rules blobs ++
    writeBlobTable order (firstBlob rules blobs) blobs) [] (blobs.map (write order))
  rw [sizes, length, List.append_nil, ← List.flatMap_def, List.append_assoc, ← image_table,
    List.forall₂_map_right_iff] at slices
  exact announces_zip slices

theorem placed_aligned : ∀ segment ∈ placed (firstBlob rules blobs) blobs, 8 ∣ segment.offset :=
  place_aligned (firstBlob_aligned rules blobs)
    (forall_mem_map.mpr fun blob (_ : blob ∈ blobs) => size_aligned blob)

theorem laidOut (fits : (mmapImage order version rules blobs).length < 2 ^ 64) :
    LaidOut order (mmapImage order version rules blobs) blobs := by
  have rulesEnd : mmapHeaderSize + rules.length ≤ tableOffset rules := le_alignUp (by decide) _
  have table : tableOffset rules + blobs.length * mmapBlobEntrySize = firstBlob rules blobs := rfl
  have first {segment : Segment} (member : segment ∈ placed (firstBlob rules blobs) blobs) :
      firstBlob rules blobs ≤ segment.offset := le_of_mem_place member
  have last {segment : Segment} (member : segment ∈ placed (firstBlob rules blobs) blobs) :
      segment.stop ≤ firstBlob rules blobs + (blobs.map size).sum :=
    stop_le_of_mem_place member
  refine ⟨?_, ?_, ?_, ?_⟩
  · rw [announced_image fits]
    exact announces_image
  · intro entry member
    rw [announced_image fits] at member
    exact placed_aligned entry.2 (of_mem_zip member).2
  · rw [sections_image fits]
    refine List.Pairwise.imp Segment.Before.apart
      (pairwise_append.mpr ⟨?_, place_pairwise _ _, ?_⟩)
    · simp only [pairwise_cons, mem_cons, not_mem_nil, or_false, forall_eq_or_imp,
        forall_eq, Segment.Before, stop, List.Pairwise.nil, false_imp_iff, implies_true, and_true]
      omega
    · intro before early after late
      have start := first late
      simp only [mem_cons, not_mem_nil, or_false] at early
      obtain rfl | rfl | rfl := early <;> simp only [Segment.Before, stop] <;> omega
  · rw [sections_image fits, image_length]
    intro segment member
    obtain early | late := mem_append.mp member
    · simp only [mem_cons, not_mem_nil, or_false] at early
      obtain rfl | rfl | rfl := early <;> simp only [stop] <;> omega
    · exact last late

end Image

end AmneziaBox.Guarantees.MappedLayout
