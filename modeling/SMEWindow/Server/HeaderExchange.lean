import SMEWindow.NetLib.Sender
import SMEWindow.Server.Receiver

/-!
# Sender and receiver agree on the header

The receiver reads each header field with a single read and never looks at how
many bytes it got. It decodes what `TCPSender` encoded exactly when the
transport happens to deliver every field in one piece: a short read of the
lengths moves the name to the right, and a name with anything in front of it
never reads back as itself.

## Main definitions

* `Server.Decodes` — the receiver ends up with the sender's fields, at the first
  byte of the file
* `Server.HeaderUncut` — each field has arrived when it is asked for

## Main results

* `decodes_iff_headerUncut` — the header survives exactly the segmentations
  that cut none of its fields
-/

set_option autoImplicit false

namespace SMEWindow.Server

open Lib.LittleEndian Lib.SegmentedStream Lib.Utf8 NetLib

variable {env : Environment} {request : Request} {net : Stream}

/-- The receiver decodes the sender's fields and stands at the first content byte. -/
def Decodes (env : Environment) (request : Request) (net : Stream) : Prop :=
  ∃ (fields : Header) (body : Stream), receiveHeader env net = .ok (fields, body) ∧
    fields.fileLength.toInt = request.content.length ∧ fields.fileName = request.FileName ∧
    fields.apikey = request.apikey ∧ body.unread = request.content

/-- Whenever the receiver asks for a header field, the whole field has arrived. -/
def HeaderUncut (request : Request) (cut : Segmentation) : Prop :=
  8 ≤ cut.waiting 0 ∧ 4 ≤ cut.waiting 1 ∧ request.filenamebuffer.length ≤ cut.waiting 2 ∧
    4 ≤ cut.waiting 3

instance (request : Request) (cut : Segmentation) : Decidable (HeaderUncut request cut) :=
  inferInstanceAs (Decidable (_ ∧ _ ∧ _ ∧ _))

/-! ### Nothing is cut -/

/-- Of the announced length the receiver sees the low 32 bits. -/
theorem toInt32_fileLength (request : Request) :
    toInt32 (getBytes64 request.fileLength) = Int32.ofNat request.content.length := by
  have hfits := request.content_fits
  have hvalue : value (getBytes64 request.fileLength) = request.content.length := by
    rw [getBytes64, value_bytes, Request.fileLength, Int64.toBitVec_ofNat', BitVec.toNat_ofNat]
    omega
  rw [toInt32_eq_ofNat_value, hvalue]

theorem toInt_toInt32_fileLength (hlength : request.content.length < 2 ^ 31) :
    (toInt32 (getBytes64 request.fileLength)).toInt = request.content.length := by
  rw [toInt32_fileLength, Int32.toInt_ofNat_of_lt hlength]

theorem toNatClampNeg_filenameLength :
    request.filenameLength.toNatClampNeg = request.filenamebuffer.length := by
  rw [Int32.toNatClampNeg, request.toInt_filenameLength, Int.toNat_natCast]

theorem filenameLength_nonneg : ¬ request.filenameLength < 0 := by
  rw [Int32.lt_iff_toInt_lt, request.toInt_filenameLength]
  exact not_lt.mpr (Int.natCast_nonneg _)

section Uncut

variable {cut : Segmentation}

/-- What a connected sender puts on the wire, as the receiver finds it. -/
def wire (request : Request) (cut : Segmentation) : Stream :=
  Stream.opened (NetLib.header request ++ request.content) cut

theorem lengthRead_of_uncut (h0 : 8 ≤ cut.waiting 0) :
    lengthRead (wire request cut) = (getBytes64 request.fileLength,
      ⟨getBytes32 request.filenameLength ++ (request.filenamebuffer ++
        (getBytes32 request.apikey ++ request.content)), 1, cut⟩) := by
  simp only [lengthRead, wire, Stream.opened, NetLib.header, List.append_assoc]
  exact Stream.readInto_append (length_getBytes64 _) h0

theorem nameLengthRead_of_uncut (h0 : 8 ≤ cut.waiting 0) (h1 : 4 ≤ cut.waiting 1) :
    nameLengthRead (wire request cut) = (getBytes32 request.filenameLength,
      ⟨request.filenamebuffer ++ (getBytes32 request.apikey ++ request.content), 2, cut⟩) := by
  rw [nameLengthRead, lengthRead_of_uncut h0]
  exact Stream.readInto_append (length_getBytes32 _) h1

theorem nameLength_of_uncut (h0 : 8 ≤ cut.waiting 0) (h1 : 4 ≤ cut.waiting 1) :
    nameLength (wire request cut) = request.filenameLength := by
  rw [nameLength, nameLengthRead_of_uncut h0 h1, toInt32_getBytes32]

/-- Each read takes its field off the front and leaves the rest of the message. -/
theorem nameRead_of_uncut (h0 : 8 ≤ cut.waiting 0) (h1 : 4 ≤ cut.waiting 1)
    (h2 : request.filenamebuffer.length ≤ cut.waiting 2) :
    nameRead (wire request cut) = (request.filenamebuffer,
      ⟨getBytes32 request.apikey ++ request.content, 3, cut⟩) := by
  rw [nameRead, nameLengthRead_of_uncut h0 h1, nameLength_of_uncut h0 h1,
    toNatClampNeg_filenameLength]
  exact Stream.readInto_append rfl h2

theorem keyRead_of_uncut (huncut : HeaderUncut request cut) :
    keyRead (wire request cut) = (getBytes32 request.apikey, ⟨request.content, 4, cut⟩) := by
  obtain ⟨h0, h1, h2, h3⟩ := huncut
  rw [keyRead, nameRead_of_uncut h0 h1 h2]
  exact Stream.readInto_append (length_getBytes32 _) h3

/-- Reads that are not cut take the header apart field by field. -/
theorem opens_of_headerUncut (haccepted : Accepted request.FileName)
    (huncut : HeaderUncut request cut) :
    ∃ filesel, Opens env (wire request cut)
      ⟨toInt32 (getBytes64 request.fileLength), request.FileName, filesel, request.apikey⟩
      ⟨request.content, 4, cut⟩ := by
  have ⟨h0, h1, h2, _⟩ := huncut
  obtain ⟨filesel, hsel⟩ := exists_selectFile_iff.mpr haccepted
  refine ⟨filesel, ?_, ?_, ?_, hsel, ?_, ?_⟩
  · rw [nameLength_of_uncut h0 h1]
    exact filenameLength_nonneg
  · rw [lengthRead_of_uncut h0]
  · rw [nameRead_of_uncut h0 h1 h2]
    exact (getString_getBytes env.replacement request.FileName).symm
  · rw [keyRead_of_uncut huncut, toInt32_getBytes32]
  · rw [keyRead_of_uncut huncut]

/-- A row that is inserted for a header that was not cut carries the key that was
sent. -/
theorem projectid_of_headerUncut {insertion : Insertion} (huncut : HeaderUncut request cut)
    (hreaches : Reaches env (wire request cut) insertion) :
    insertion.projectid = request.apikey := by
  obtain ⟨header, body, k, hopens, -, -, -, rfl⟩ := reaches_iff.mp hreaches
  rw [hopens.apikey_eq, keyRead_of_uncut huncut, toInt32_getBytes32]

end Uncut

/-! ### Something is cut -/

/-- A window of a stream that begins before a field and ends behind it. -/
theorem take_drop_append (before field after : List UInt8) {start count : ℕ}
    (hstart : start ≤ before.length) (hend : before.length + field.length ≤ start + count) :
    ∃ rest, ((before ++ field ++ after).drop start).take count =
      before.drop start ++ field ++ rest := by
  refine ⟨after.take (count - (before.length - start) - field.length), ?_⟩
  rw [List.append_assoc, List.drop_append_of_le_length hstart, List.take_append,
    List.length_drop, List.take_of_length_le (by rw [List.length_drop]; omega), List.take_append,
    List.take_of_length_le (by omega), List.append_assoc]

/-- The bytes in front of the name on the wire. -/
def nameOffset : ℕ := 12

/-- If the lengths were cut short and the name was read up to its end, the
decoded name is not the one that was sent. -/
theorem getString_ne_of_shifted {start count : ℕ} (size : ℕ) (hshift : start < nameOffset)
    (hend : nameOffset + request.filenamebuffer.length ≤ start + count) :
    getString env.replacement (Stream.fill size
      (((NetLib.header request ++ request.content).drop start).take count)) ≠
        request.FileName := by
  -- the wire around the name
  set lengths := getBytes64 request.fileLength ++ getBytes32 request.filenameLength with hlengths
  set behind := getBytes32 request.apikey ++ request.content with hbehind
  have hoffset : lengths.length = nameOffset := by
    rw [hlengths, List.length_append, length_getBytes64, length_getBytes32]
    rfl
  have hwire : NetLib.header request ++ request.content =
      lengths ++ request.filenamebuffer ++ behind := by
    simp only [NetLib.header, hlengths, hbehind, List.append_assoc]
  -- the window starts with leftover bytes of the lengths, then holds the whole name
  obtain ⟨rest, hrest⟩ := take_drop_append lengths request.filenamebuffer behind
    (show start ≤ lengths.length by omega)
    (show lengths.length + request.filenamebuffer.length ≤ start + count by omega)
  rw [Stream.fill, hwire, hrest, List.append_assoc]
  refine getString_ne_of_append env.replacement request.FileName _ ?_
  rw [Ne, List.drop_eq_nil_iff]
  omega

/-- If the receiver stands at the first content byte, its four reads have
together taken exactly the header. -/
theorem delivered_eq_of_unread {cut : Segmentation}
    (hcontent : (keyRead (wire request cut)).2.unread = request.content) :
    (wire request cut).delivered 8 + (lengthRead (wire request cut)).2.delivered 4 +
      (nameLengthRead (wire request cut)).2.delivered
        (nameLength (wire request cut)).toNatClampNeg +
      (nameRead (wire request cut)).2.delivered 4 = 16 + request.filenamebuffer.length := by
  set net := wire request cut
  -- every read shortens the stream by what it delivers, down to the content
  have htotal : net.unread.length =
      16 + request.filenamebuffer.length + request.content.length := by
    rw [← length_header, ← List.length_append]
    rfl
  have h1 : (lengthRead net).2.unread.length = net.unread.length - net.delivered 8 :=
    List.length_drop
  have h2 : (nameLengthRead net).2.unread.length =
      (lengthRead net).2.unread.length - (lengthRead net).2.delivered 4 := List.length_drop
  have h3 : (nameRead net).2.unread.length = (nameLengthRead net).2.unread.length -
      (nameLengthRead net).2.delivered (nameLength net).toNatClampNeg := List.length_drop
  have h4 : request.content.length =
      (nameRead net).2.unread.length - (nameRead net).2.delivered 4 := by
    rw [← hcontent]
    exact List.length_drop
  have b1 := net.delivered_le_length 8
  have b2 := (lengthRead net).2.delivered_le_length 4
  have b3 := (nameLengthRead net).2.delivered_le_length (nameLength net).toNatClampNeg
  have b4 := (nameRead net).2.delivered_le_length 4
  omega

/-- The name buffer is a window of the wire behind what the lengths have taken. -/
theorem nameRead_fst (request : Request) (cut : Segmentation) :
    (nameRead (wire request cut)).1 =
      Stream.fill (nameLength (wire request cut)).toNatClampNeg
        (((NetLib.header request ++ request.content).drop
          ((wire request cut).delivered 8 + (lengthRead (wire request cut)).2.delivered 4)).take
            ((nameLengthRead (wire request cut)).2.delivered
              (nameLength (wire request cut)).toNatClampNeg)) := by
  rw [← List.drop_drop]
  rfl

/-- A receiver that has the sender's name and stands at the first content byte
got every field in one piece. -/
theorem headerUncut_of_unread {cut : Segmentation}
    (hname : getString env.replacement (nameRead (wire request cut)).1 = request.FileName)
    (hcontent : (keyRead (wire request cut)).2.unread = request.content) :
    HeaderUncut request cut := by
  -- the four reads took exactly the header, and no read takes more than its field
  have hsum := delivered_eq_of_unread hcontent
  have c1 := (wire request cut).delivered_le_count 8
  have c2 := (lengthRead (wire request cut)).2.delivered_le_count 4
  have c4 := (nameRead (wire request cut)).2.delivered_le_count 4
  -- a short length field would shift the window of the name
  have hlengths : (wire request cut).delivered 8 = 8 ∧
      (lengthRead (wire request cut)).2.delivered 4 = 4 := by
    by_contra hshort
    rw [nameRead_fst] at hname
    exact getString_ne_of_shifted _ (by rw [nameOffset]; omega) (by rw [nameOffset]; omega) hname
  have h0 : 8 ≤ cut.waiting 0 := Stream.le_waiting_of_delivered_eq _ _ hlengths.1
  have h1 : 4 ≤ cut.waiting 1 := Stream.le_waiting_of_delivered_eq _ _ hlengths.2
  -- with the right name length, the last two reads have nothing to spare either
  have c3 := (nameLengthRead (wire request cut)).2.delivered_le_count
    (nameLength (wire request cut)).toNatClampNeg
  rw [nameLength_of_uncut h0 h1, toNatClampNeg_filenameLength] at c3 hsum
  have h2 : request.filenamebuffer.length ≤ cut.waiting 2 :=
    Stream.le_waiting_of_delivered_eq (nameLengthRead (wire request cut)).2 _ (by omega)
  have h3 : 4 ≤ cut.waiting 3 :=
    Stream.le_waiting_of_delivered_eq (nameRead (wire request cut)).2 _ (by omega)
  exact ⟨h0, h1, h2, h3⟩

theorem Decodes.headerUncut {cut : Segmentation} (h : Decodes env request (wire request cut)) :
    HeaderUncut request cut := by
  obtain ⟨fields, body, hok, -, hname, -, hcontent⟩ := h
  have hopens := receiveHeader_eq_ok_iff.mp hok
  have hdecoded := hopens.fileName_eq.symm.trans hname
  rw [hopens.body_eq] at hcontent
  exact headerUncut_of_unread hdecoded hcontent

theorem decodes_of_headerUncut {cut : Segmentation} (haccepted : Accepted request.FileName)
    (hlength : request.content.length < 2 ^ 31) (huncut : HeaderUncut request cut) :
    Decodes env request (wire request cut) := by
  obtain ⟨filesel, hopens⟩ := opens_of_headerUncut haccepted huncut
  exact ⟨_, _, receiveHeader_eq_ok_iff.mpr hopens, toInt_toInt32_fileLength hlength, rfl, rfl, rfl⟩

/-- **The header survives exactly the segmentations that cut none of its
fields.** A sender of an accepted name and a file of less than 2 GiB puts its
header and its file on the wire; the receiver decodes that header and stands at
the first content byte if and only if each of its four reads found the whole
field waiting. -/
theorem decodes_iff_headerUncut (env : Environment) (request : Request)
    (haccepted : Accepted request.FileName) (hlength : request.content.length < 2 ^ 31) :
    ∃ fuel sent, tcpSender fuel request = some sent ∧
      ∀ cut, Decodes env request (Stream.opened sent cut) ↔ HeaderUncut request cut := by
  obtain ⟨fuel, hsent⟩ := exists_tcpSender request (by omega)
  exact ⟨fuel, _, hsent, fun cut => ⟨Decodes.headerUncut, decodes_of_headerUncut haccepted hlength⟩⟩

/-- A report of three bytes. -/
def sampleRequest : Request where
  FileName := "a.xml"
  apikey := 7
  content := [1, 2, 3]
  name_fits := by decide
  content_fits := by decide

/-- The theorem speaks about ordinary reports. -/
theorem decodes_iff_headerUncut_sample :
    ∃ fuel sent, tcpSender fuel sampleRequest = some sent ∧
      ∀ cut, Decodes .faultless sampleRequest (Stream.opened sent cut) ↔
        HeaderUncut sampleRequest cut :=
  decodes_iff_headerUncut .faultless sampleRequest (by decide) (by decide)

/-- The transport delivers the first byte on its own. -/
def firstByteAlone : Segmentation where
  waiting i := if i = 0 then 1 else 64
  waiting_pos i := by split <;> decide

/-- When the first byte travels alone, the receiver does not decode what the
sender encoded. -/
theorem not_decodes_of_firstByteAlone :
    ∃ sent, tcpSender 3 sampleRequest = some sent ∧
      ¬ Decodes .faultless sampleRequest (Stream.opened sent firstByteAlone) := by
  refine ⟨_, rfl, fun hdecodes => ?_⟩
  have huncut : HeaderUncut sampleRequest firstByteAlone := hdecodes.headerUncut
  exact absurd huncut (by decide)

end SMEWindow.Server
