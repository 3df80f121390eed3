/- digest: The notes of the helper on the wire, and the reader that takes them off split reads. -/

import Mathlib.Algebra.Ring.Nat
import Ramjet.Base.Octets
import Ramjet.Base.Records

set_option autoImplicit false
set_option relaxedAutoImplicit false

namespace Ramjet.Engine.NoteFraming

open Ramjet.Base.Octets
open Ramjet.Base.Records

/-- Bytes in one note. -/
def NOTE_LEN : Nat := 12

/-- A tick note, carrying no descriptor. -/
def KIND_TICK : UInt32 := 0

/-- A connect-finished note. -/
def KIND_CONNECT : UInt32 := 1

/-- What the helper thread tells a core, in the integers it tells it in. -/
inductive Note where
  | tick
  | connected (fd err : Int32)
  deriving DecidableEq

section Encoding

/-- `u32::to_le_bytes`. -/
def toLeBytes (v : UInt32) : Bytes :=
  (List.range 4).map fun i => UInt8.ofNat (v.toNat / 256 ^ i % 256)

/-- `u32::from_le_bytes` of a slice that has to hold four bytes. -/
def fromLeBytes : Bytes → Option UInt32
  | [a, b, c, d] =>
      some (UInt32.ofNat (a.toNat + 256 * b.toNat + 256 ^ 2 * c.toNat + 256 ^ 3 * d.toNat))
  | _ => none

def Note.encode (note : Note) : Bytes :=
  let (fd, kind, err) :=
    match note with
    | .tick => (0, KIND_TICK, 0)
    | .connected fd err => (fd.toUInt32, KIND_CONNECT, err)
  toLeBytes fd ++ toLeBytes kind ++ toLeBytes err.toUInt32

def Note.decode (bytes : Bytes) : Option Note :=
  if bytes.length < NOTE_LEN then none
  else do
    let fd ← fromLeBytes (bytes.take 4)
    let kind ← fromLeBytes ((bytes.drop 4).take 4)
    let err ← fromLeBytes ((bytes.drop 8).take 4)
    if kind = KIND_CONNECT then some (.connected fd.toInt32 err.toInt32) else some .tick

theorem toLeBytes_length (v : UInt32) : (toLeBytes v).length = 4 := by
  rw [toLeBytes, List.length_map, List.length_range]

/-- The four bytes of a number are read back as that number. -/
theorem fromLeBytes_toLeBytes (v : UInt32) : fromLeBytes (toLeBytes v) = some v := by
  have hv := v.toNat_lt
  simp only [toLeBytes, List.range, List.range.loop, List.map_cons, List.map_nil, fromLeBytes,
    Option.some.injEq]
  apply UInt32.toNat_inj.mp
  simp only [UInt32.toNat_ofNat', UInt8.toNat_ofNat']
  omega

theorem Note.encode_length (note : Note) : note.encode.length = NOTE_LEN := by
  cases note <;> simp [Note.encode, toLeBytes_length, NOTE_LEN]

/-- Decoding undoes encoding, whatever the descriptor and the error number. -/
theorem Note.decode_encode (note : Note) : Note.decode note.encode = some note := by
  have hcut (a b c : UInt32) :
      let bytes := toLeBytes a ++ toLeBytes b ++ toLeBytes c
      bytes.take 4 = toLeBytes a ∧ (bytes.drop 4).take 4 = toLeBytes b ∧
        (bytes.drop 8).take 4 = toLeBytes c := by
    refine ⟨?_, ?_, ?_⟩
    all_goals simp [toLeBytes, List.range, List.range.loop]
  rw [Note.decode, if_neg (by rw [note.encode_length]; exact Nat.lt_irrefl _)]
  cases note with
  | tick =>
      obtain ⟨hfd, hkind, herr⟩ := hcut 0 KIND_TICK (0 : Int32).toUInt32
      simp only [Note.encode, hfd, hkind, herr, fromLeBytes_toLeBytes, Option.bind_eq_bind,
        Option.bind_some]
      rfl
  | connected fd err =>
      obtain ⟨hfd, hkind, herr⟩ := hcut fd.toUInt32 KIND_CONNECT err.toUInt32
      simp only [Note.encode, hfd, hkind, herr, fromLeBytes_toLeBytes, Option.bind_eq_bind,
        Option.bind_some]
      simp

end Encoding

section Reading

/-- `while partial.len() >= NOTE_LEN`, for as many rounds as are allowed. -/
def drain : Nat → Bytes → List Note × Bytes
  | 0, buffer => ([], buffer)
  | rounds + 1, buffer =>
      if NOTE_LEN ≤ buffer.length then
        let (later, left) := drain rounds (buffer.drop NOTE_LEN)
        ((Note.decode (buffer.take NOTE_LEN)).toList ++ later, left)
      else ([], buffer)

/-- A round for every byte is enough to take off every whole note. -/
theorem drain_eq {rounds : Nat} {buffer : Bytes} (h : buffer.length ≤ rounds) :
    drain rounds buffer = readOne NOTE_LEN Note.decode [] buffer := by
  induction rounds generalizing buffer with
  | zero =>
      rw [List.eq_nil_of_length_eq_zero (Nat.le_zero.mp h)]
      rfl
  | succ rounds ih =>
      rw [drain]
      split
      · rename_i hlong
        have hleft : (buffer.drop NOTE_LEN).length ≤ rounds := by
          rw [List.length_drop]
          simp only [NOTE_LEN] at hlong ⊢
          omega
        have htake : (buffer.take NOTE_LEN).length = NOTE_LEN := List.length_take_of_le hlong
        obtain ⟨hwhole, hrest⟩ :=
          records_append_left (by decide) htake (buffer.drop NOTE_LEN)
        rw [List.take_append_drop] at hwhole hrest
        simp only [ih hleft, readOne, List.nil_append, hwhole, hrest, List.filterMap_cons]
        cases Note.decode (buffer.take NOTE_LEN) <;> rfl
      · rename_i hshort
        obtain ⟨hnone, hall⟩ := records_of_short (Nat.lt_of_not_le hshort)
        simp [readOne, hnone, hall]

/-- Reassembles notes from a stream that may split them; it never holds a whole one. -/
structure NoteReader where
  partialBytes : Bytes := []
  short : partialBytes.length < NOTE_LEN := by decide

/-- The notes `f` is called for, and the buffer left over. -/
def NoteReader.feedBytes (reader : NoteReader) (bytes : Bytes) : List Note × Bytes :=
  if reader.partialBytes.isEmpty then
    let whole := bytes.length / NOTE_LEN * NOTE_LEN
    ((records NOTE_LEN (bytes.take whole)).filterMap Note.decode, bytes.drop whole)
  else
    let buffer := reader.partialBytes ++ bytes
    drain buffer.length buffer

/-- Both paths of the reader read what it carried and what came as one stream. -/
theorem NoteReader.feedBytes_eq (reader : NoteReader) (bytes : Bytes) :
    reader.feedBytes bytes = readOne NOTE_LEN Note.decode reader.partialBytes bytes := by
  rw [feedBytes]
  split
  · rename_i hempty
    have hcount : (bytes.take (bytes.length / NOTE_LEN * NOTE_LEN)).length / NOTE_LEN =
        bytes.length / NOTE_LEN := by
      rw [List.length_take_of_le (Nat.div_mul_le_self _ _)]
      exact Nat.mul_div_cancel _ (by decide)
    have hwhole : records NOTE_LEN (bytes.take (bytes.length / NOTE_LEN * NOTE_LEN)) =
        records NOTE_LEN bytes := by
      rw [records_beginning (by decide) (bytes.take _) (bytes.drop _), List.take_append_drop,
        hcount, List.take_of_length_le (records_count (by decide) bytes).le]
    rw [List.isEmpty_iff.mp hempty, readOne, List.nil_append, ← hwhole, remainder]
  · rw [drain_eq le_rfl]
    rfl

def NoteReader.feed (reader : NoteReader) (bytes : Bytes) : List Note × NoteReader :=
  ((reader.feedBytes bytes).1, ⟨(reader.feedBytes bytes).2, by
    rw [reader.feedBytes_eq]
    exact remainder_length_lt (by decide) _⟩)

/-- Everything the reads of a core give it. -/
def NoteReader.feedAll (reader : NoteReader) : List Bytes → List Note × NoteReader
  | [] => ([], reader)
  | bytes :: reads =>
      let (now, reader) := reader.feed bytes
      let (later, reader) := reader.feedAll reads
      (now ++ later, reader)

theorem NoteReader.feedAll_eq (reader : NoteReader) (reads : List Bytes) :
    ((reader.feedAll reads).1, (reader.feedAll reads).2.partialBytes) =
      readOne NOTE_LEN Note.decode reader.partialBytes reads.flatten := by
  rw [← readAll_eq_readOne NOTE_LEN Note.decode (by decide) reader.short]
  induction reads generalizing reader with
  | nil => rfl
  | cons bytes reads ih =>
      have hone := reader.feedBytes_eq bytes
      have hrest := ih (reader.feed bytes).2
      rw [readAll, ← hone]
      simp only [feedAll, feed, Prod.ext_iff] at hrest ⊢
      exact ⟨by rw [hrest.1], hrest.2⟩

end Reading

section Framing

theorem records_encoded (notes : List Note) :
    records NOTE_LEN (notes.flatMap Note.encode) = notes.map Note.encode ∧
      remainder NOTE_LEN (notes.flatMap Note.encode) = [] := by
  have hwidth : ∀ x ∈ notes.map Note.encode, x.length = NOTE_LEN := by
    intro x hx
    obtain ⟨note, -, rfl⟩ := List.mem_map.mp hx
    exact note.encode_length
  rw [List.flatMap_def]
  exact records_flatten (by decide) hwidth

theorem filterMap_decode (notes : List Note) :
    (notes.map Note.encode).filterMap Note.decode = notes := by
  have hsome : Note.decode ∘ Note.encode = some := funext Note.decode_encode
  rw [List.filterMap_map, hsome, List.filterMap_some]

/-- However the bytes of the notes are read, every whole note read is handed out, each once and in
order, and the bytes of the one cut short are kept; and a note decodes to itself. -/
theorem feedAll_notes (notes : List Note) (reads : List Bytes) (later : Bytes)
    (h : reads.flatten ++ later = notes.flatMap Note.encode) :
    ((NoteReader.feedAll {} reads).1 = notes.take (reads.flatten.length / NOTE_LEN) ∧
      (NoteReader.feedAll {} reads).2.partialBytes =
        reads.flatten.drop (reads.flatten.length / NOTE_LEN * NOTE_LEN) ∧
      (later = [] → (NoteReader.feedAll {} reads).1 = notes ∧
        (NoteReader.feedAll {} reads).2.partialBytes = [])) ∧
      ∀ note : Note, Note.decode note.encode = some note := by
  obtain ⟨hnotes, hwhole⟩ := records_encoded notes
  obtain ⟨hread, hleft⟩ := Prod.ext_iff.mp (NoteReader.feedAll_eq {} reads)
  simp only [readOne, List.nil_append] at hread hleft
  refine ⟨⟨?_, hleft, ?_⟩, Note.decode_encode⟩
  · rw [hread, records_beginning (by decide) reads.flatten later, h, hnotes, ← List.map_take,
      filterMap_decode]
  · intro hlater
    rw [hlater, List.append_nil] at h
    rw [hread, hleft, h, hnotes, hwhole, filterMap_decode]
    exact ⟨rfl, rfl⟩

/-- Two notes read in pieces of five, twelve and seven bytes. -/
theorem feedAll_notes_split :
    let notes : List Note := [.connected (-1) 111, .tick]
    let bytes := notes.flatMap Note.encode
    let reads := [bytes.take 5, (bytes.drop 5).take 12, bytes.drop 17]
    (NoteReader.feedAll {} reads).1 = notes ∧
      (NoteReader.feedAll {} reads).2.partialBytes = [] := by
  intro notes bytes reads
  have hreads : reads.flatten ++ [] = notes.flatMap Note.encode := by decide +kernel
  exact (feedAll_notes notes reads [] hreads).1.2.2 rfl

end Framing

end Ramjet.Engine.NoteFraming
