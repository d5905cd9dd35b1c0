import SMEWindow.Lib.LittleEndian
import SMEWindow.Lib.Loop
import SMEWindow.Lib.SegmentedStream
import SMEWindow.Lib.Text
import SMEWindow.Lib.Utf8

/-!
# The receiving end of a transfer

`SMEAsyncReceiver.Receive` reads four header fields, each with a single read
into a fresh buffer, then copies blocks of at most 1024 bytes into a file until
it has counted the announced length, and then stores the report. Every exception
on the way is caught.

What the receiver meets outside its own code is its environment: how the UTF-8
decoder treats ill-formed input, which files can be created, and how the
database answers.

## Main definitions

* `Server.Environment` — everything around the receiver
* `Server.receive` — one call of `Receive`, with fuel for its loop
* `Server.Opens` — what the header reads deliver, field by field
* `Server.Returns`, `Server.Reaches` — the call ends; it inserts a row

## Main results

* `receiveHeader_eq_ok_iff` — the header code decodes the delivered fields
* `returns_iff_exists_block` — a call ends when its body loop does
* `reaches_iff` — what an inserted row and its file are made of
-/

set_option autoImplicit false

namespace SMEWindow.Server

open Lib.LittleEndian Lib.Loop Lib.SegmentedStream Lib.Text Lib.Utf8

/-- The exceptions that `Receive` catches. -/
inductive Failure
  /-- `new byte[fileNameLength]` with a negative length. -/
  | overflow
  /-- The exception of the extension check, with its message. -/
  | extension (message : String)
  /-- The `FileStream` constructor. -/
  | fileStream
  /-- The `DumpsDBM` constructor, which opens the connection. -/
  | connection
  /-- A statement sent to the database, or the reader of the stored file. -/
  | storing
  deriving DecidableEq, Repr

/-- `filesel`: which of the two kinds of report the name announces. -/
inductive FileSelection
  | xml | dmp
  deriving DecidableEq, Repr

/-- The fields `Receive` decodes before the file. -/
structure Header where
  fileLength : Int32
  fileName : String
  filesel : FileSelection
  apikey : Int32
  deriving DecidableEq, Repr

/-- A call of `DumpsDBM.Insert` and the file that was stored before it. The row is the arguments
of the call; what the database makes of the statement built from them is another matter. -/
structure Insertion where
  dumpname : String
  projectid : Int32
  file : List UInt8
  deriving DecidableEq, Repr

/-- How everything from `Insert` on ends. -/
inductive Storing
  | returns
  /-- With an exception, which `Receive` catches. -/
  | throws
  /-- With an overflow of the stack, which nothing catches and which ends the process. -/
  | endsProcess
  deriving DecidableEq, Repr

/-- What surrounds a receiver. -/
structure Environment where
  /-- How the UTF-8 decoder treats ill-formed input. -/
  replacement : Replacement
  /-- Whether the named file can be created. -/
  creatable : String → Bool
  /-- Whether the connection to the database can be opened. -/
  connects : Bool
  /-- How everything from `Insert` on ends. -/
  stores : Insertion → FileSelection → Storing

/-- The environment in which nothing outside the receiver fails. -/
def Environment.faultless : Environment where
  replacement := .perByte
  creatable _ := true
  connects := true
  stores _ _ := .returns

/-! ### The header -/

/-- The extension check. A name may contain the extension anywhere. -/
def selectFile (fileName : String) : Except Failure FileSelection :=
  if contains fileName ".dmp" then .ok .dmp
  else if contains fileName ".xml" then .ok .xml
  else if contains fileName ".XML" then .ok .xml
  else .error (.extension "파일 확장자가 다릅니다.")

/-- The four header reads. None of them looks at the number of bytes read. -/
def receiveHeader (env : Environment) (net : Stream) : Except Failure (Header × Stream) := do
  let (buffer, net) := net.readInto 8
  -- `ToInt32` on eight bytes looks at the first four of them
  let fileLength := toInt32 buffer
  let (buffer, net) := net.readInto 4
  let fileNameLength := toInt32 buffer
  if fileNameLength < 0 then throw .overflow
  let (buffer, net) := net.readInto fileNameLength.toNatClampNeg
  let fileName := getString env.replacement buffer
  let filesel ← selectFile fileName
  let (buffer, net) := net.readInto 4
  let apikey := toInt32 buffer
  return (⟨fileLength, fileName, filesel, apikey⟩, net)

/-- The name passes the extension check. -/
def Accepted (fileName : String) : Prop :=
  contains fileName ".dmp" ∨ contains fileName ".xml" ∨ contains fileName ".XML"

instance (fileName : String) : Decidable (Accepted fileName) :=
  inferInstanceAs (Decidable (_ ∨ _ ∨ _))

theorem exists_selectFile_iff {fileName : String} :
    (∃ filesel, selectFile fileName = .ok filesel) ↔ Accepted fileName := by
  unfold selectFile Accepted
  split_ifs <;> simp_all

section Fields

variable (net : Stream)

/-- The buffer of the file length, and the stream after it. -/
def lengthRead : List UInt8 × Stream := net.readInto 8

/-- The buffer of the name length, and the stream after it. -/
def nameLengthRead : List UInt8 × Stream := (lengthRead net).2.readInto 4

/-- The name length that was delivered. -/
def nameLength : Int32 := toInt32 (nameLengthRead net).1

/-- The buffer of the name, and the stream after it. -/
def nameRead : List UInt8 × Stream :=
  (nameLengthRead net).2.readInto (nameLength net).toNatClampNeg

/-- The buffer of the api key, and the stream after it. -/
def keyRead : List UInt8 × Stream := (nameRead net).2.readInto 4

end Fields

/-- The transport delivers a header that passes every check, and then `body`. -/
structure Opens (env : Environment) (net : Stream) (header : Header) (body : Stream) : Prop where
  nameLength_nonneg : ¬ nameLength net < 0
  fileLength_eq : header.fileLength = toInt32 (lengthRead net).1
  fileName_eq : header.fileName = getString env.replacement (nameRead net).1
  filesel_eq : selectFile header.fileName = .ok header.filesel
  apikey_eq : header.apikey = toInt32 (keyRead net).1
  body_eq : body = (keyRead net).2

variable {env : Environment} {net body : Stream} {header : Header}

theorem Opens.accepted (h : Opens env net header body) : Accepted header.fileName :=
  exists_selectFile_iff.mp ⟨_, h.filesel_eq⟩

/-- The header code succeeds exactly on the fields that were delivered. -/
theorem receiveHeader_eq_ok_iff :
    receiveHeader env net = .ok (header, body) ↔ Opens env net header body := by
  -- the code in terms of the delivered fields; the reads themselves stay folded
  have hcode : receiveHeader env net =
      if nameLength net < 0 then .error .overflow
      else (selectFile (getString env.replacement (nameRead net).1)).bind fun filesel =>
        .ok (⟨toInt32 (lengthRead net).1, getString env.replacement (nameRead net).1, filesel,
          toInt32 (keyRead net).1⟩, (keyRead net).2) := by
    unfold receiveHeader
    by_cases hneg : nameLength net < 0
    · rw [if_pos hneg]
      exact if_pos hneg
    · rw [if_neg hneg]
      exact if_neg hneg
  rw [hcode]
  constructor
  · intro hok
    split_ifs at hok with hneg
    cases hsel : selectFile (getString env.replacement (nameRead net).1) with
    | error failure =>
      rw [hsel] at hok
      cases hok
    | ok filesel =>
      rw [hsel] at hok
      cases hok
      exact ⟨hneg, rfl, rfl, hsel, rfl, rfl⟩
  · intro hopens
    obtain ⟨fileLength, fileName, filesel, apikey⟩ := header
    obtain ⟨hneg, rfl, rfl, hsel, rfl, rfl⟩ := hopens
    have hsel' : selectFile (getString env.replacement (nameRead net).1) = .ok filesel := hsel
    rw [if_neg hneg, hsel']
    rfl

/-! ### The file -/

/-- `buffer.Length` while the file is received. -/
def blockLength : ℕ := 1024

/-- The variables of the body loop. -/
structure Receiving where
  totalLength : Int32
  file : List UInt8
  net : Stream

/-- One iteration: read a block, write what was read, count it. -/
def receiveBlock (s : Receiving) : Receiving :=
  let (data, net) := s.net.read blockLength
  ⟨s.totalLength + Int32.ofNat data.length, s.file ++ data, net⟩

/-- The body loop, `none` if the fuel does not suffice. -/
def receiveBody (fuel : ℕ) (fileLength : Int32) (net : Stream) : Option Receiving :=
  whileFuel (fun s : Receiving => s.totalLength < fileLength) receiveBlock fuel ⟨0, [], net⟩

/-- The file announced as `fileLength` bytes is considered complete after `k` blocks. -/
def CountedAfter (fileLength : Int32) (body : Stream) (k : ℕ) : Prop :=
  fileLength ≤ Int32.ofNat (body.consumed blockLength k)

instance (fileLength : Int32) (body : Stream) (k : ℕ) :
    Decidable (CountedAfter fileLength body k) :=
  inferInstanceAs (Decidable (_ ≤ _))

/-- The loop is over after `k` blocks and not before. -/
def CompleteAfter (fileLength : Int32) (body : Stream) (k : ℕ) : Prop :=
  (∀ j < k, ¬ CountedAfter fileLength body j) ∧ CountedAfter fileLength body k

/-- After `k` blocks the file holds exactly the bytes that `k` reads have taken,
and the count is their number modulo `2 ^ 32`. -/
theorem receiveBlock_iterate (k : ℕ) :
    receiveBlock^[k] ⟨0, [], body⟩ =
      ⟨Int32.ofNat (body.consumed blockLength k), body.unread.take (body.consumed blockLength k),
        body.afterReads blockLength k⟩ := by
  induction k with
  | zero => simp [Stream.afterReads]
  | succ k ih =>
    -- the next block takes what the stream delivers, which is never more than is left
    have hlength := (body.afterReads blockLength k).delivered_le_length blockLength
    rw [Stream.afterReads_unread] at hlength
    rw [Function.iterate_succ_apply', ih, receiveBlock, Stream.consumed_succ, List.take_add,
      Stream.afterReads_succ, Int32.ofNat_add]
    simp only [Stream.read_fst, Stream.afterReads_unread, List.length_take, min_eq_left hlength]

theorem not_lt_receiveBlock_iff (fileLength : Int32) (k : ℕ) :
    decide ((receiveBlock^[k] ⟨0, [], body⟩).totalLength < fileLength) = false ↔
      CountedAfter fileLength body k := by
  rw [receiveBlock_iterate, decide_eq_false_iff_not, Int32.not_lt, CountedAfter]

theorem endsAfter_iff_completeAfter (fileLength : Int32) (k : ℕ) :
    EndsAfter (fun s : Receiving => s.totalLength < fileLength) receiveBlock ⟨0, [], body⟩ k ↔
      CompleteAfter fileLength body k := by
  rw [EndsAfter, CompleteAfter, not_lt_receiveBlock_iff]
  refine and_congr_left' (forall₂_congr fun j _ => ?_)
  rw [← not_lt_receiveBlock_iff, Bool.not_eq_false]

/-- The loop is over after some block if and only if enough is counted after some block. -/
theorem exists_completeAfter_iff_exists_countedAfter {fileLength : Int32} :
    (∃ k, CompleteAfter fileLength body k) ↔ ∃ k, CountedAfter fileLength body k := by
  simp only [← endsAfter_iff_completeAfter, exists_endsAfter_iff, not_lt_receiveBlock_iff]

theorem CompleteAfter.eq {fileLength : Int32} {j k : ℕ} (hj : CompleteAfter fileLength body j)
    (hk : CompleteAfter fileLength body k) : j = k := by
  rw [← endsAfter_iff_completeAfter] at hj hk
  exact EndsAfter.eq hj hk

/-- The body loop ends with the bytes of the blocks it needed. -/
theorem exists_receiveBody_file_iff (fileLength : Int32) (file : List UInt8) :
    (∃ fuel s, receiveBody fuel fileLength body = some s ∧ s.file = file) ↔
      ∃ k, CompleteAfter fileLength body k ∧
        file = body.unread.take (body.consumed blockLength k) := by
  constructor
  · -- the loop ended after some number of blocks
    rintro ⟨fuel, s, hrun, rfl⟩
    obtain ⟨k, -, hends, rfl⟩ := whileFuel_eq_some_iff.mp hrun
    refine ⟨k, (endsAfter_iff_completeAfter fileLength k).mp hends, ?_⟩
    rw [receiveBlock_iterate]
  · rintro ⟨k, hcomplete, rfl⟩
    refine ⟨k + 1, receiveBlock^[k] ⟨0, [], body⟩, whileFuel_eq_some_iff.mpr ?_, ?_⟩
    · exact ⟨k, k.lt_succ_self, (endsAfter_iff_completeAfter fileLength k).mpr hcomplete, rfl⟩
    · rw [receiveBlock_iterate]

/-! ### The whole call -/

/-- What a call of `Receive` leaves behind. -/
structure Outcome where
  /-- The call of `DumpsDBM.Insert`, if it was reached. -/
  insertion : Option Insertion
  /-- The exception that was caught, if there was one. -/
  caught : Option Failure
  /-- The call has not returned, since the process ended in it. -/
  processEnded : Bool
  deriving DecidableEq, Repr

/-- From the received file to the end of the `try` block. -/
def store (env : Environment) (header : Header) (file : List UInt8) : Outcome :=
  let insertion : Insertion := ⟨header.fileName, header.apikey, file⟩
  if env.connects then
    match env.stores insertion header.filesel with
    | .returns => ⟨some insertion, none, false⟩
    | .throws => ⟨some insertion, some .storing, false⟩
    | .endsProcess => ⟨some insertion, none, true⟩
  else ⟨none, some .connection, false⟩

/-- One call of `Receive`, `none` if the fuel does not suffice for its loop. -/
def receive (env : Environment) (fuel : ℕ) (net : Stream) : Option Outcome :=
  match receiveHeader env net with
  | .error failure => some ⟨none, some failure, false⟩
  | .ok (header, body) =>
    if env.creatable header.fileName then
      (receiveBody fuel header.fileLength body).map fun s => store env header s.file
    else some ⟨none, some .fileStream, false⟩

/-- The call makes finitely many reads and returns. -/
def Returns (env : Environment) (net : Stream) : Prop :=
  ∃ fuel outcome, receive env fuel net = some outcome ∧ outcome.processEnded = false

/-- The call reaches `DumpsDBM.Insert` with this row, after storing this file. -/
def Reaches (env : Environment) (net : Stream) (insertion : Insertion) : Prop :=
  ∃ fuel outcome, receive env fuel net = some outcome ∧ outcome.insertion = some insertion

/-- Storing the received file does not end the process. -/
def StoringReturns (env : Environment) (header : Header) (file : List UInt8) : Prop :=
  env.connects = true →
    env.stores ⟨header.fileName, header.apikey, file⟩ header.filesel ≠ .endsProcess

theorem store_processEnded_eq_false_iff {file : List UInt8} :
    (store env header file).processEnded = false ↔ StoringReturns env header file := by
  unfold StoringReturns
  cases hconnects : env.connects with
  | false => simp [store, hconnects]
  | true =>
    cases hstores : env.stores ⟨header.fileName, header.apikey, file⟩ header.filesel <;>
      simp [store, hconnects, hstores]

/-- A call that accepts its header returns if and only if enough is counted, and storing what
was received does not end the process. -/
theorem returns_iff_exists_block :
    Returns env net ↔ ∀ header body, Opens env net header body →
      env.creatable header.fileName = true → ∃ k, CompleteAfter header.fileLength body k ∧
        StoringReturns env header (body.unread.take (body.consumed blockLength k)) := by
  constructor
  · rintro ⟨fuel, outcome, hrun, hended⟩ header body hopens hcreatable
    rw [receive, receiveHeader_eq_ok_iff.mpr hopens] at hrun
    simp only [hcreatable, if_true] at hrun
    obtain ⟨s, hs, rfl⟩ := Option.map_eq_some_iff.mp hrun
    obtain ⟨k, hcomplete, hfile⟩ :=
      (exists_receiveBody_file_iff header.fileLength s.file).mp ⟨fuel, s, hs, rfl⟩
    exact ⟨k, hcomplete, hfile ▸ store_processEnded_eq_false_iff.mp hended⟩
  · intro hcounted
    cases hheader : receiveHeader env net with
    | error failure => exact ⟨0, ⟨none, some failure, false⟩, by rw [receive, hheader], rfl⟩
    | ok opened =>
      obtain ⟨header, body⟩ := opened
      cases hcreatable : env.creatable header.fileName with
      | false =>
        refine ⟨0, ⟨none, some .fileStream, false⟩, ?_, rfl⟩
        simp [receive, hheader, hcreatable]
      | true =>
        obtain ⟨k, hcomplete, hstoring⟩ :=
          hcounted header body (receiveHeader_eq_ok_iff.mp hheader) hcreatable
        obtain ⟨fuel, s, hs, hfile⟩ :=
          (exists_receiveBody_file_iff header.fileLength _).mpr ⟨k, hcomplete, rfl⟩
        refine ⟨fuel, store env header s.file, ?_, ?_⟩
        · simp [receive, hheader, hcreatable, hs]
        · rw [store_processEnded_eq_false_iff, hfile]
          exact hstoring

theorem store_insertion_eq_some_iff {file : List UInt8} {insertion : Insertion} :
    (store env header file).insertion = some insertion ↔
      env.connects = true ∧ insertion = ⟨header.fileName, header.apikey, file⟩ := by
  rw [@eq_comm _ insertion]
  cases hconnects : env.connects with
  | false => simp [store, hconnects]
  | true =>
    cases hstores : env.stores ⟨header.fileName, header.apikey, file⟩ header.filesel <;>
      simp [store, hconnects, hstores]

/-- An inserted row carries the delivered name and key, and the stored file is
what the body loop copied. -/
theorem reaches_iff {insertion : Insertion} :
    Reaches env net insertion ↔ ∃ header body k, Opens env net header body ∧
      env.creatable header.fileName = true ∧ env.connects = true ∧
      CompleteAfter header.fileLength body k ∧
      insertion = ⟨header.fileName, header.apikey,
        body.unread.take (body.consumed blockLength k)⟩ := by
  constructor
  · rintro ⟨fuel, outcome, hrun, hinsert⟩
    cases hheader : receiveHeader env net with
    | error failure =>
      rw [receive, hheader] at hrun
      obtain rfl := Option.some.inj hrun
      cases hinsert
    | ok opened =>
      obtain ⟨header, body⟩ := opened
      rw [receive, hheader] at hrun
      -- a file that cannot be created ends the call before `Insert`
      cases hcreatable : env.creatable header.fileName with
      | false =>
        simp only [hcreatable, Bool.false_eq_true, if_false, Option.some.injEq] at hrun
        subst hrun
        cases hinsert
      | true =>
        simp only [hcreatable, if_true] at hrun
        obtain ⟨s, hs, rfl⟩ := Option.map_eq_some_iff.mp hrun
        obtain ⟨hconnects, rfl⟩ := store_insertion_eq_some_iff.mp hinsert
        obtain ⟨k, hcomplete, hfile⟩ :=
          (exists_receiveBody_file_iff header.fileLength s.file).mp ⟨fuel, s, hs, rfl⟩
        exact ⟨header, body, k, receiveHeader_eq_ok_iff.mp hheader, hcreatable, hconnects,
          hcomplete, by rw [hfile]⟩
  · rintro ⟨header, body, k, hopens, hcreatable, hconnects, hcomplete, rfl⟩
    obtain ⟨fuel, s, hs, hfile⟩ :=
      (exists_receiveBody_file_iff header.fileLength _).mpr ⟨k, hcomplete, rfl⟩
    refine ⟨fuel, store env header s.file, ?_,
      store_insertion_eq_some_iff.mpr ⟨hconnects, by rw [hfile]⟩⟩
    simp [receive, receiveHeader_eq_ok_iff.mpr hopens, hcreatable, hs]

end SMEWindow.Server
