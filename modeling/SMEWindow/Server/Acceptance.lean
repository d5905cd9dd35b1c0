import SMEWindow.Server.ReceiverReturn

/-!
# Which byte streams the receiver stores

A message is a length, the length of a name, the name, an api key and at least
as many further bytes as the length says. The receiver does not check that it
got one. Buffers that a short stream leaves unfilled read as zeros, so that some
truncated messages pass for complete ones; of the length only the low 32 bits
are looked at; and the file is copied in whole blocks, so that bytes behind the
message can end up in it.

## Main definitions

* `Server.Message` — a complete message, the grammar the receiver is for
* `Server.Faithful` — the receiver stores a row exactly for complete messages,
  and exactly what they say
* `Message.EndsOnBlock` — the announced length is where a copy in blocks stops
* `Server.PassesZeroFilled` — the stream passes for a message once its missing
  header bytes are read as zeros

## Main results

* `reaches_whole_iff` — the row and the file, from the bytes alone
* `faithful_iff` — on which streams the receiver does what it is for
-/

set_option autoImplicit false

namespace SMEWindow.Server

open Lib.LittleEndian Lib.SegmentedStream Lib.Utf8

/-! ### The grammar -/

/-- A complete message, with whatever follows it. -/
structure Message where
  lengthField : List UInt8
  nameLengthField : List UInt8
  nameField : List UInt8
  keyField : List UInt8
  /-- Everything after the header. -/
  rest : List UInt8
  length_lengthField : lengthField.length = 8
  length_nameLengthField : nameLengthField.length = 4
  length_keyField : keyField.length = 4
  nameLength_eq : (toInt32 nameLengthField).toInt = nameField.length
  length_nonneg : 0 ≤ (toInt64 lengthField).toInt
  /-- At least as many bytes as the length says. -/
  length_le : (toInt64 lengthField).toInt ≤ rest.length

namespace Message

variable (m : Message)

/-- The message and what follows it, as they travel. -/
def bytes : List UInt8 :=
  m.lengthField ++ (m.nameLengthField ++ (m.nameField ++ (m.keyField ++ m.rest)))

/-- The announced length. -/
def length : ℕ := (toInt64 m.lengthField).toInt.toNat

/-- The bytes that belong to the file. -/
def file : List UInt8 := m.rest.take m.length

/-- The name and key of the message and the bytes of its file. -/
def insertion (r : Replacement) : Insertion := ⟨getString r m.nameField, toInt32 m.keyField, m.file⟩

/-- The name of the message passes the extension check. -/
def Acceptable (r : Replacement) : Prop := Accepted (getString r m.nameField)

/-- The copy in blocks of 1024 bytes stops exactly at the announced length: it
is a whole number of blocks, or nothing follows the file and the low 32 bits of
its length are a length at which the count can be caught. -/
def EndsOnBlock : Prop :=
  (1024 ∣ m.length ∧ m.length < 2 ^ 31) ∨
    (m.length = m.rest.length ∧ (m.length < 2 ^ 31 ∨
      (2 ^ 31 - 1024 < m.length % 2 ^ 32 ∧ m.length % 2 ^ 32 < 2 ^ 31)))

end Message

/-- The receiver inserts a row exactly for the complete messages, and what it
stores is what the message says. -/
def Faithful (env : Environment) (bytes : List UInt8) : Prop :=
  ∀ insertion, Reaches env (Stream.whole bytes) insertion ↔
    ∃ m : Message, m.bytes = bytes ∧ m.Acceptable env.replacement ∧
      insertion = m.insertion env.replacement

/-! ### The bytes as the receiver sees them -/

section ZeroFilled

variable (bytes : List UInt8)

/-- The first eight bytes, missing ones as zeros. -/
def zeroFilledLength : List UInt8 := Stream.fill 8 (bytes.take 8)

/-- The next four bytes as a number, missing ones as zeros. -/
def zeroFilledNameLength : Int32 := toInt32 (Stream.fill 4 ((bytes.drop 8).take 4))

/-- The bytes of the name, missing ones as zeros. -/
def zeroFilledName : List UInt8 :=
  Stream.fill (zeroFilledNameLength bytes).toNatClampNeg
    ((bytes.drop 12).take (zeroFilledNameLength bytes).toNatClampNeg)

/-- The bytes of the api key, missing ones as zeros. -/
def zeroFilledKey : List UInt8 :=
  Stream.fill 4 ((bytes.drop (12 + (zeroFilledNameLength bytes).toNatClampNeg)).take 4)

/-- What is left behind the header. -/
def behindHeader : List UInt8 := bytes.drop (16 + (zeroFilledNameLength bytes).toNatClampNeg)

/-- The 32 bits of the length that are looked at. -/
def announcedLength : Int := (toInt32 (zeroFilledLength bytes)).toInt

end ZeroFilled

variable {env : Environment} {bytes : List UInt8}

/-- A 32-bit count of `available` bytes in blocks is caught at `announced`. -/
def Countable (announced : Int) (available : ℕ) : Prop :=
  announced ≤ available ∧ (lastCaughtLength < announced →
    announced ≤ (available % 2 ^ 32 : ℕ) ∧ available % 2 ^ 32 < 2 ^ 31)

/-- With its missing header bytes read as zeros, the stream passes every check
of the receiver, and what is left behind the header can be counted up to the
announced length. -/
def PassesZeroFilled (env : Environment) (bytes : List UInt8) : Prop :=
  ¬ zeroFilledNameLength bytes < 0 ∧
    Accepted (getString env.replacement (zeroFilledName bytes)) ∧
    Countable (announcedLength bytes) (behindHeader bytes).length

/-- The number of bytes copied, when the count is caught. -/
def copiedLength (announced : Int) (available : ℕ) : ℕ :=
  if announced ≤ 0 then 0
  else if announced ≤ lastCaughtLength then
    min ((announced.toNat + 1023) / 1024 * 1024) available
  else available

theorem copiedLength_le (announced : Int) (available : ℕ) :
    copiedLength announced available ≤ available := by
  unfold copiedLength
  split_ifs <;> omega

/-- The stream after the two lengths. -/
theorem nameLengthRead_whole (bytes : List UInt8) :
    (nameLengthRead (Stream.whole bytes)).1 = Stream.fill 4 ((bytes.drop 8).take 4) ∧
      (nameLengthRead (Stream.whole bytes)).2.unread = bytes.drop 12 ∧
      (nameLengthRead (Stream.whole bytes)).2.Arrived := by
  have hwhole := Stream.arrived_whole bytes
  rw [nameLengthRead, lengthRead]
  refine ⟨?_, ?_, hwhole.readInto.readInto⟩
  · rw [hwhole.readInto.readInto_fst, hwhole.readInto_snd_unread]
    rfl
  · rw [hwhole.readInto.readInto_snd_unread, hwhole.readInto_snd_unread, List.drop_drop]
    rfl

theorem nameLength_whole (bytes : List UInt8) :
    nameLength (Stream.whole bytes) = zeroFilledNameLength bytes := by
  rw [nameLength, (nameLengthRead_whole bytes).1, zeroFilledNameLength]

/-- The stream after the name. -/
theorem nameRead_whole (bytes : List UInt8) :
    (nameRead (Stream.whole bytes)).1 = zeroFilledName bytes ∧
      (nameRead (Stream.whole bytes)).2.unread =
        bytes.drop (12 + (zeroFilledNameLength bytes).toNatClampNeg) ∧
      (nameRead (Stream.whole bytes)).2.Arrived := by
  obtain ⟨-, hunread, harrived⟩ := nameLengthRead_whole bytes
  rw [nameRead, nameLength_whole]
  refine ⟨?_, ?_, harrived.readInto⟩
  · rw [harrived.readInto_fst, hunread, zeroFilledName]
  · rw [harrived.readInto_snd_unread, hunread, List.drop_drop]

/-- The stream after the header. -/
theorem keyRead_whole (bytes : List UInt8) :
    (keyRead (Stream.whole bytes)).1 = zeroFilledKey bytes ∧
      (keyRead (Stream.whole bytes)).2.unread = behindHeader bytes ∧
      (keyRead (Stream.whole bytes)).2.Arrived := by
  obtain ⟨-, hunread, harrived⟩ := nameRead_whole bytes
  rw [keyRead]
  refine ⟨?_, ?_, harrived.readInto⟩
  · rw [harrived.readInto_fst, hunread, zeroFilledKey]
  · rw [harrived.readInto_snd_unread, hunread, List.drop_drop, Nat.add_right_comm, behindHeader]

/-! ### Counting in blocks -/

/-- No multiple of 1024 lies between `2 ^ 31 - 1024` and `2 ^ 31`: only the last,
partial block can catch one of the largest lengths. -/
theorem available_lt_of_caught {announced : Int} {available k : ℕ}
    (hlarge : lastCaughtLength < announced)
    (hle : announced ≤ (min (k * 1024) available % 2 ^ 32 : ℕ))
    (hlt : min (k * 1024) available % 2 ^ 32 < 2 ^ 31) : available < k * 1024 := by
  rw [lastCaughtLength] at hlarge
  -- full blocks only would give a multiple of 1024
  by_contra hfull
  rw [min_eq_left (by omega)] at hle hlt
  omega

/-- If no read is short, the count is caught or not by the number of bytes alone. -/
theorem announced_iff_countable {fileLength : Int32} {body : Stream}
    (hfull : body.NoShortReads blockLength) :
    Announced fileLength body ↔ Countable fileLength.toInt body.unread.length := by
  simp only [Announced, Countable, hfull.consumed_eq]
  simp only [blockLength]
  refine and_congr_right fun hle => forall_congr' fun hlarge => ⟨?_, ?_⟩
  · rintro ⟨k, hk, hk'⟩
    have hlast := available_lt_of_caught hlarge hk hk'
    rw [min_eq_right hlast.le] at hk hk'
    exact ⟨hk, hk'⟩
  · rintro ⟨hk, hk'⟩
    refine ⟨body.unread.length, ?_⟩
    rw [min_eq_right (by omega)]
    exact ⟨hk, hk'⟩

/-- What is copied when the loop stops. -/
theorem consumed_eq_copiedLength {fileLength : Int32} {body : Stream} {k : ℕ}
    (hfull : body.NoShortReads blockLength) (hcomplete : CompleteAfter fileLength body k) :
    body.consumed blockLength k = copiedLength fileLength.toInt body.unread.length := by
  obtain ⟨hbefore, hcounted⟩ := hcomplete
  have hconsumed : ∀ j, body.consumed blockLength j = min (j * 1024) body.unread.length :=
    hfull.consumed_eq
  -- the loop does not run past a count that has been caught.
  have hfirst : ∀ j, fileLength.toInt ≤ (body.consumed blockLength j % 2 ^ 32 : ℕ) →
      body.consumed blockLength j % 2 ^ 32 < 2 ^ 31 → k ≤ j := fun j hle hlt =>
    not_lt.mp fun hj => hbefore j hj (countedAfter_of_le_consumed hle hlt)
  unfold copiedLength
  split_ifs with hnonpos hcaught
  · -- the loop is not entered
    have hzero := hfirst 0 (by simpa using hnonpos) (by simp)
    rw [Nat.le_zero.mp hzero, Stream.consumed_zero]
  · -- it stops with the first block that reaches the length
    have hcount := le_consumed_of_countedAfter (by omega) hcounted
    have hneeded := hfirst ((fileLength.toInt.toNat + 1023) / 1024)
    rw [lastCaughtLength] at hcaught
    rw [hconsumed] at hcount hneeded ⊢
    omega
  · -- it stops with the last bytes that there are
    have hcount := le_consumed_of_countedAfter (by omega) hcounted
    rw [hconsumed] at hcount ⊢
    exact min_eq_right (available_lt_of_caught (not_le.mp hcaught) hcount.1 hcount.2).le

/-- The loop without short reads stops with the copied bytes, or never. -/
theorem exists_completeAfter_iff (fileLength : Int32) {body : Stream}
    (hfull : body.NoShortReads blockLength) (count : ℕ) :
    (∃ k, CompleteAfter fileLength body k ∧ body.consumed blockLength k = count) ↔
      Countable fileLength.toInt body.unread.length ∧
        copiedLength fileLength.toInt body.unread.length = count := by
  constructor
  · rintro ⟨k, hcomplete, rfl⟩
    refine ⟨?_, (consumed_eq_copiedLength hfull hcomplete).symm⟩
    rw [← announced_iff_countable hfull, ← exists_countedAfter_iff]
    exact ⟨k, hcomplete.2⟩
  · rintro ⟨hcountable, rfl⟩
    rw [← announced_iff_countable hfull, ← exists_countedAfter_iff] at hcountable
    have hcomplete : CompleteAfter fileLength body (Nat.find hcountable) :=
      ⟨fun j hj => Nat.find_min hcountable hj, Nat.find_spec hcountable⟩
    exact ⟨_, hcomplete, consumed_eq_copiedLength hfull hcomplete⟩

/-- Where the copy of a file stops at the length of which it is shown the low 32
bits. -/
theorem countable_and_copiedLength_eq_iff {length available : ℕ} (hle : length ≤ available) :
    Countable ((length : Int).bmod (2 ^ 32)) available ∧
        copiedLength ((length : Int).bmod (2 ^ 32)) available = length ↔
      (1024 ∣ length ∧ length < 2 ^ 31) ∨ (length = available ∧ (length < 2 ^ 31 ∨
        (2 ^ 31 - 1024 < length % 2 ^ 32 ∧ length % 2 ^ 32 < 2 ^ 31))) := by
  -- arithmetic of blocks and of the low 32 bits; the cases are the sign of the count
  rw [Int.bmod_def, copiedLength, Countable, lastCaughtLength]
  split_ifs <;> omega

/-! ### The row and the file -/

theorem opens_whole_iff {header : Header} {body : Stream} :
    Opens env (Stream.whole bytes) header body ↔
      ¬ zeroFilledNameLength bytes < 0 ∧
        header.fileLength = toInt32 (zeroFilledLength bytes) ∧
        header.fileName = getString env.replacement (zeroFilledName bytes) ∧
        selectFile header.fileName = .ok header.filesel ∧
        header.apikey = toInt32 (zeroFilledKey bytes) ∧
        body = (keyRead (Stream.whole bytes)).2 := by
  have hlength : (lengthRead (Stream.whole bytes)).1 = zeroFilledLength bytes :=
    (Stream.arrived_whole bytes).readInto_fst
  rw [← nameLength_whole, ← hlength, ← (nameRead_whole bytes).1, ← (keyRead_whole bytes).1]
  exact ⟨fun ⟨h1, h2, h3, h4, h5, h6⟩ => ⟨h1, h2, h3, h4, h5, h6⟩,
    fun ⟨h1, h2, h3, h4, h5, h6⟩ => ⟨h1, h2, h3, h4, h5, h6⟩⟩

/-- The row and file of a stream that passes. -/
def zeroFilledInsertion (env : Environment) (bytes : List UInt8) : Insertion :=
  ⟨getString env.replacement (zeroFilledName bytes), toInt32 (zeroFilledKey bytes),
    (behindHeader bytes).take (copiedLength (announcedLength bytes) (behindHeader bytes).length)⟩

/-- The database is reachable, and the file the stream names can be created. -/
structure Ready (env : Environment) (bytes : List UInt8) : Prop where
  creatable : env.creatable (getString env.replacement (zeroFilledName bytes)) = true
  connects : env.connects = true

/-- What a stream without cuts makes the receiver insert. -/
theorem reaches_whole_iff (hready : Ready env bytes) {insertion : Insertion} :
    Reaches env (Stream.whole bytes) insertion ↔
      PassesZeroFilled env bytes ∧ insertion = zeroFilledInsertion env bytes := by
  obtain ⟨-, hunread, harrived⟩ := keyRead_whole bytes
  have hstops := exists_completeAfter_iff (toInt32 (zeroFilledLength bytes))
    harrived.noShortReads
  rw [hunread] at hstops
  rw [reaches_iff]
  constructor
  · -- the delivered fields are the zero-filled ones, and the loop stopped
    rintro ⟨⟨fileLength, fileName, filesel, apikey⟩, body, k, hopens, -, -, hcomplete, rfl⟩
    have haccepted := hopens.accepted
    obtain ⟨hnameLength, rfl, rfl, -, rfl, rfl⟩ := opens_whole_iff.mp hopens
    obtain ⟨hcountable, hcopied⟩ := (hstops _).mp ⟨k, hcomplete, rfl⟩
    refine ⟨⟨hnameLength, haccepted, hcountable⟩, ?_⟩
    rw [zeroFilledInsertion, announcedLength, hcopied, hunread]
  · rintro ⟨⟨hnameLength, haccepted, hcountable⟩, rfl⟩
    obtain ⟨filesel, hsel⟩ := exists_selectFile_iff.mpr haccepted
    obtain ⟨k, hcomplete, hcopied⟩ := (hstops _).mpr ⟨hcountable, rfl⟩
    refine ⟨⟨toInt32 (zeroFilledLength bytes), getString env.replacement (zeroFilledName bytes),
      filesel, toInt32 (zeroFilledKey bytes)⟩, (keyRead (Stream.whole bytes)).2, k,
      opens_whole_iff.mpr ⟨hnameLength, rfl, rfl, hsel, rfl, rfl⟩, hready.creatable,
      hready.connects, hcomplete, ?_⟩
    rw [zeroFilledInsertion, announcedLength, hunread, hcopied]

/-! ### Complete messages -/

namespace Message

variable (m : Message)

theorem toNatClampNeg_nameLength :
    (toInt32 m.nameLengthField).toNatClampNeg = m.nameField.length := by
  rw [Int32.toNatClampNeg, m.nameLength_eq, Int.toNat_natCast]

theorem zeroFilledLength_bytes : zeroFilledLength m.bytes = m.lengthField := by
  rw [zeroFilledLength, bytes, ← m.length_lengthField, List.take_left,
    Stream.fill_of_length_eq _ rfl]

theorem zeroFilledNameLength_bytes :
    zeroFilledNameLength m.bytes = toInt32 m.nameLengthField := by
  rw [zeroFilledNameLength, bytes, ← m.length_lengthField, List.drop_left,
    ← m.length_nameLengthField, List.take_left, Stream.fill_of_length_eq _ rfl]

theorem drop_bytes : m.bytes.drop 12 = m.nameField ++ (m.keyField ++ m.rest) := by
  have hoffset : (m.lengthField ++ m.nameLengthField).length = 12 := by
    rw [List.length_append, m.length_lengthField, m.length_nameLengthField]
  rw [bytes, ← List.append_assoc, ← hoffset, List.drop_left]

theorem zeroFilledName_bytes : zeroFilledName m.bytes = m.nameField := by
  rw [zeroFilledName, zeroFilledNameLength_bytes, toNatClampNeg_nameLength, drop_bytes,
    List.take_left, Stream.fill_of_length_eq _ rfl]

theorem zeroFilledKey_bytes : zeroFilledKey m.bytes = m.keyField := by
  rw [zeroFilledKey, zeroFilledNameLength_bytes, toNatClampNeg_nameLength, ← List.drop_drop,
    drop_bytes, List.drop_left, ← m.length_keyField, List.take_left,
    Stream.fill_of_length_eq _ rfl]

theorem behindHeader_bytes : behindHeader m.bytes = m.rest := by
  have hoffset : 16 + m.nameField.length = 12 + (m.nameField ++ m.keyField).length := by
    rw [List.length_append, m.length_keyField]
    omega
  rw [behindHeader, zeroFilledNameLength_bytes, toNatClampNeg_nameLength, hoffset,
    ← List.drop_drop, drop_bytes, ← List.append_assoc, List.drop_left]

theorem length_eq_value : m.length = value m.lengthField := by
  have hlt := value_lt m.lengthField
  have hnonneg := m.length_nonneg
  rw [m.length_lengthField] at hlt
  have hbmod : (toInt64 m.lengthField).toInt = (value m.lengthField : Int).bmod (2 ^ 64) := by
    rw [toInt64_eq_ofNat_value m.length_lengthField.le]
    exact Int64.toInt_ofNat'
  rw [hbmod, Int.bmod_def] at hnonneg
  rw [length, hbmod, Int.bmod_def]
  split_ifs at hnonneg ⊢ <;> omega

/-- The receiver looks at the low 32 bits of the announced length. -/
theorem announcedLength_bytes : announcedLength m.bytes = (m.length : Int).bmod (2 ^ 32) := by
  rw [announcedLength, zeroFilledLength_bytes, toInt32_eq_ofNat_value, length_eq_value]
  exact Int32.toInt_ofNat'

theorem length_le_rest : m.length ≤ m.rest.length := by
  have hle := m.length_le
  rw [length]
  omega

/-- What the message says, from the bytes alone: a stream begins with at most
one message. -/
theorem insertion_eq (r : Replacement) :
    m.insertion r = ⟨getString r (zeroFilledName m.bytes), toInt32 (zeroFilledKey m.bytes),
      (behindHeader m.bytes).take m.length⟩ := by
  rw [insertion, file, zeroFilledName_bytes, zeroFilledKey_bytes, behindHeader_bytes]

/-- The copy stops at the announced length exactly in the two cases of
`EndsOnBlock`. -/
theorem endsOnBlock_iff :
    m.EndsOnBlock ↔ Countable (announcedLength m.bytes) (behindHeader m.bytes).length ∧
      copiedLength (announcedLength m.bytes) (behindHeader m.bytes).length = m.length := by
  rw [EndsOnBlock, announcedLength_bytes, behindHeader_bytes,
    countable_and_copiedLength_eq_iff m.length_le_rest]

theorem passesZeroFilled {env : Environment} (hacceptable : m.Acceptable env.replacement)
    (hcountable : Countable (announcedLength m.bytes) (behindHeader m.bytes).length) :
    PassesZeroFilled env m.bytes := by
  refine ⟨?_, ?_, hcountable⟩
  · rw [zeroFilledNameLength_bytes, Int32.lt_iff_toInt_lt, m.nameLength_eq]
    exact not_lt.mpr (Int.natCast_nonneg _)
  · rw [zeroFilledName_bytes]
    exact hacceptable

theorem zeroFilledInsertion_bytes (env : Environment) :
    zeroFilledInsertion env m.bytes = m.insertion env.replacement ↔
      copiedLength (announcedLength m.bytes) (behindHeader m.bytes).length = m.length := by
  have hle := m.length_le_rest
  have hcopied := copiedLength_le (announcedLength m.bytes) (behindHeader m.bytes).length
  rw [zeroFilledInsertion, insertion_eq]
  simp only [Insertion.mk.injEq, true_and]
  rw [← behindHeader_bytes] at hle
  constructor
  · intro hfile
    have hlength := congrArg List.length hfile
    rwa [List.length_take, List.length_take, min_eq_left hcopied, min_eq_left hle] at hlength
  · intro hlength
    rw [hlength]

end Message

/-- **On which streams the receiver does what it is for.** When only the end of
the stream shortens a read, the receiver inserts a row exactly for the complete
messages, with exactly their name, key and file, if and only if the copy in
blocks of a complete message stops at its length, and a stream that is no
complete message does not pass for one once zeros stand for its missing bytes. -/
theorem faithful_iff (env : Environment) (bytes : List UInt8) (hready : Ready env bytes) :
    Faithful env bytes ↔
      (∀ m : Message, m.bytes = bytes → m.Acceptable env.replacement → m.EndsOnBlock) ∧
        (PassesZeroFilled env bytes →
          ∃ m : Message, m.bytes = bytes ∧ m.Acceptable env.replacement) := by
  constructor
  · intro hfaithful
    refine ⟨?_, fun hpasses => ?_⟩
    · rintro m rfl hacceptable
      have hreaches := (hfaithful (m.insertion env.replacement)).mpr ⟨m, rfl, hacceptable, rfl⟩
      obtain ⟨⟨-, -, hcountable⟩, hinsertion⟩ := (reaches_whole_iff hready).mp hreaches
      exact m.endsOnBlock_iff.mpr
        ⟨hcountable, (m.zeroFilledInsertion_bytes env).mp hinsertion.symm⟩
    · have hreaches := (reaches_whole_iff hready).mpr ⟨hpasses, rfl⟩
      obtain ⟨m, hbytes, hacceptable, -⟩ := (hfaithful _).mp hreaches
      exact ⟨m, hbytes, hacceptable⟩
  · rintro ⟨hends, hcomplete⟩ insertion
    -- both sides speak about the zero-filled fields, which are those of the message
    rw [reaches_whole_iff hready]
    constructor
    · rintro ⟨hpasses, rfl⟩
      obtain ⟨m, rfl, hacceptable⟩ := hcomplete hpasses
      have hcopied := (m.endsOnBlock_iff.mp (hends m rfl hacceptable)).2
      exact ⟨m, rfl, hacceptable, (m.zeroFilledInsertion_bytes env).mpr hcopied⟩
    · rintro ⟨m, rfl, hacceptable, rfl⟩
      obtain ⟨hcountable, hcopied⟩ := m.endsOnBlock_iff.mp (hends m rfl hacceptable)
      exact ⟨m.passesZeroFilled hacceptable hcountable,
        ((m.zeroFilledInsertion_bytes env).mpr hcopied).symm⟩

/-- The theorem speaks about ordinary streams. -/
theorem faithful_iff_sample :
    Ready .faultless truncatedReport ∧ (Faithful .faultless truncatedReport ↔
      (∀ m : Message, m.bytes = truncatedReport →
        m.Acceptable Environment.faultless.replacement → m.EndsOnBlock) ∧
      (PassesZeroFilled .faultless truncatedReport →
        ∃ m : Message, m.bytes = truncatedReport ∧
          m.Acceptable Environment.faultless.replacement)) :=
  ⟨⟨rfl, rfl⟩, faithful_iff .faultless truncatedReport ⟨rfl, rfl⟩⟩

/-- A report of three bytes with two more bytes behind it. -/
def trailingReport : Message where
  lengthField := [3, 0, 0, 0, 0, 0, 0, 0]
  nameLengthField := [5, 0, 0, 0]
  nameField := [97, 46, 120, 109, 108]
  keyField := [7, 0, 0, 0]
  rest := [1, 2, 3, 4, 5]
  length_lengthField := rfl
  length_nameLengthField := rfl
  length_keyField := rfl
  nameLength_eq := by decide
  length_nonneg := by decide
  length_le := by decide

/-- Of five bytes behind the header of a report of three, all five are stored. -/
theorem not_faithful_of_trailing : ¬ Faithful .faultless trailingReport.bytes := by
  intro hfaithful
  have hreaches := (hfaithful (trailingReport.insertion .perByte)).mpr
    ⟨trailingReport, rfl, by unfold Message.Acceptable; decide, rfl⟩
  have hready : Ready .faultless trailingReport.bytes := ⟨rfl, rfl⟩
  have hinsertion := ((reaches_whole_iff hready).mp hreaches).2
  exact absurd hinsertion (by decide)

end SMEWindow.Server
