/- digest: A head written line by line is read back field by field. -/

import Ramjet.Engine.Codec.AcceptedHead
import Ramjet.Engine.Headers

set_option autoImplicit false
set_option relaxedAutoImplicit false

namespace Ramjet.Engine.WrittenHead

open Ramjet.Base.Octets
open Ramjet.Engine.Codec.MessageHead
open Ramjet.Engine.Codec.AcceptedHead
open Ramjet.Engine.Headers

/-- The bytes of a head: a start line, its fields, and the blank line. -/
def writtenHead (line : Bytes) (fields : List (Bytes × Bytes)) : Bytes :=
  line ++ (crlf ++ (fields.flatMap (fun f => field f.1 f.2) ++ crlf))

/-- One field line without its terminator. -/
def fieldLine (f : Bytes × Bytes) : Bytes := f.1 ++ 58 :: 32 :: f.2

theorem field_eq (f : Bytes × Bytes) : field f.1 f.2 = fieldLine f ++ crlf := by
  have hsep : ascii ": " = [58, 32] := by decide
  simp [field, fieldLine, hsep]

/-- The fields a written block is read back as. -/
def readBack (fields : List (Bytes × Bytes)) : List (Bytes × Bytes) :=
  fields.map fun f => (f.1, trimOws f.2)

theorem writtenHead_eq_join (line : Bytes) (fields : List (Bytes × Bytes)) :
    writtenHead line fields = joinBytes crlf (line :: fields.map fieldLine) ++ crlfcrlf := by
  induction fields generalizing line with
  | nil => simp [writtenHead, joinBytes, crlf, crlfcrlf]
  | cons f fs ih =>
      have htail := ih (fieldLine f)
      simp only [writtenHead, List.flatMap_cons, field_eq, List.map_cons, joinBytes,
        List.append_assoc] at htail ⊢
      rw [htail]

/-- A line that neither holds a terminator nor starts with one byte of it. -/
structure LineOk (l : Bytes) : Prop where
  crlfFree : CrlfFree l
  head_ne : ∀ b ∈ l.head?, b ≠ 13
  ne_nil : l ≠ []

theorem isTchar_ne {b : UInt8} (hb : isTchar b = true) : b ≠ 13 ∧ b ≠ 32 ∧ b ≠ 9 ∧ b ≠ 58 := by
  refine ⟨?_, ?_, ?_, ?_⟩ <;> rintro rfl <;> revert hb <;> decide

theorem isControl_ne {b : UInt8} (hb : isControl b = false) : b ≠ 13 := by
  rintro rfl
  revert hb
  decide

theorem lineOk_fieldLine {f : Bytes × Bytes} (hf : FieldOk f) : LineOk (fieldLine f) where
  crlfFree := by
    refine crlfFree_of_not_mem ?_
    simp only [fieldLine, List.mem_append, List.mem_cons, not_or]
    refine ⟨fun h => (isTchar_ne (hf.name_tchar _ h)).1 rfl, by decide, by decide, ?_⟩
    exact fun h => isControl_ne (hf.value_clean _ h) rfl
  head_ne := by
    intro b hb
    cases hname : f.1 with
    | nil => exact absurd hname hf.name_ne
    | cons c cs =>
        simp only [fieldLine, hname, List.cons_append, List.head?_cons, Option.mem_def,
          Option.some.injEq] at hb
        exact hb ▸ (isTchar_ne (hf.name_tchar c (by simp [hname]))).1
  ne_nil := by simp [fieldLine]

/-- The blank line of a written head is the one that ends it. -/
theorem findSub_join {line : Bytes} (hline : CrlfFree line) {lines : List Bytes}
    (hlines : ∀ l ∈ lines, LineOk l) :
    findSub crlfcrlf (joinBytes crlf (line :: lines) ++ crlfcrlf) =
      some (joinBytes crlf (line :: lines)).length := by
  induction lines generalizing line with
  | nil => simpa [joinBytes] using findSub_crlfcrlf_last hline []
  | cons l ls ih =>
      have hl := hlines l (by simp)
      have hstart : ¬ crlf <+: joinBytes crlf (l :: ls) ++ crlfcrlf := by
        obtain ⟨b, rest, rfl⟩ := List.exists_cons_of_ne_nil hl.ne_nil
        have hb := hl.head_ne b (by simp)
        cases ls with
        | nil => simpa [joinBytes, crlf] using fun h => absurd h.symm hb
        | cons => simpa [joinBytes, crlf] using fun h => absurd h.symm hb
      have htail := ih hl.crlfFree fun m hm => hlines m (by simp [hm])
      simp only [joinBytes, List.append_assoc]
      rw [findSub_crlfcrlf_line hline hstart, htail]
      simp only [Option.map_some, List.length_append, crlf, List.length_cons, List.length_nil]
      congr 1
      omega

/-- Cutting one line off a block of joined lines. -/
theorem splitLine_join (pre : Bytes) {line : Bytes} (hline : CrlfFree line)
    (lines : List Bytes) :
    splitLine (pre ++ joinBytes crlf (line :: lines)) pre.length =
      (line, if lines = [] then (pre ++ line).length else (pre ++ line ++ crlf).length) := by
  cases lines with
  | nil => simp [splitLine, joinBytes, findSub_crlf_eq_none hline]
  | cons l ls =>
      simp only [splitLine, joinBytes, List.drop_left, findSub_crlf_line hline, List.take_left]
      simp [crlf, Nat.add_assoc]

theorem splitOnce_fieldLine {f : Bytes × Bytes} (hf : FieldOk f) :
    splitOnce (58 : UInt8) (fieldLine f) = some (f.1, 32 :: f.2) :=
  splitOnce_append (fun h => (isTchar_ne (hf.name_tchar _ h)).2.2.2 rfl) _

theorem parseFieldLine_fieldLine {f : Bytes × Bytes} (hf : FieldOk f) (base : Nat) :
    ∃ span, parseFieldLine base (fieldLine f) = .ok span := by
  have hfold : ¬ ((fieldLine f).head? = some 32 ∨ (fieldLine f).head? = some 9) := by
    obtain ⟨c, cs, hname⟩ := List.exists_cons_of_ne_nil hf.name_ne
    have hc := isTchar_ne (hf.name_tchar c (by simp [hname]))
    simp [fieldLine, hname, hc.2.1, hc.2.2.1]
  have hname : (f.1.isEmpty || !f.1.all isTchar) = false := by
    have hall : f.1.all isTchar = true := by simpa using hf.name_tchar
    simp [hall, hf.name_ne]
  have hvalue : ((32 : UInt8) :: f.2).any isControl = false := by
    have hall : f.2.any isControl = false := by simpa using hf.value_clean
    rw [List.any_cons, hall]
    decide
  simp only [parseFieldLine, if_neg hfold, splitOnce_fieldLine hf, hname, hvalue]
  exact ⟨_, rfl⟩

theorem fieldOf_fieldLine {f : Bytes × Bytes} (hf : FieldOk f) {pre : Bytes} (tail : Bytes)
    {span : HeaderSpan} (h : parseFieldLine pre.length (fieldLine f) = .ok span) :
    fieldOf (pre ++ (fieldLine f ++ tail)) span = (f.1, trimOws f.2) := by
  obtain ⟨name, rawValue, hline, hok, hfield⟩ := fieldOf_parseFieldLine tail h
  have hsplit := splitOnce_fieldLine hf
  rw [hline, splitOnce_append fun h => (isTchar_ne (hok.name_tchar _ h)).2.2.2 rfl] at hsplit
  obtain ⟨rfl, rfl⟩ : name = f.1 ∧ rawValue = 32 :: f.2 := by simpa using hsplit
  rw [hfield, trimOws_space]

/-- A block of joined field lines is read without a limit, field by field. -/
theorem parseFields_join (fields : List (Bytes × Bytes)) (hfields : ∀ f ∈ fields, FieldOk f)
    (pre tail : Bytes) (headers : List HeaderSpan) :
    ∃ spans, parseFields Limits.unlimited (pre ++ joinBytes crlf (fields.map fieldLine))
        pre.length headers = (.ok (), headers ++ spans) ∧
      spans.map (fieldOf (pre ++ (joinBytes crlf (fields.map fieldLine) ++ tail))) =
        readBack fields := by
  induction fields generalizing pre headers with
  | nil =>
      refine ⟨[], ?_, rfl⟩
      rw [parseFields]
      simp [joinBytes]
  | cons f fs ih =>
      have hf := hfields f (by simp)
      have hline := lineOk_fieldLine hf
      obtain ⟨span, hspan⟩ := parseFieldLine_fieldLine hf pre.length
      have hlt : pre.length < (pre ++ joinBytes crlf ((f :: fs).map fieldLine)).length := by
        have hpos : 0 < (joinBytes crlf ((f :: fs).map fieldLine)).length := by
          have hone := List.length_pos_iff.mpr hline.ne_nil
          cases fs with
          | nil => simpa [joinBytes] using hone
          | cons => simp only [List.map_cons, joinBytes, List.length_append]; omega
        rw [List.length_append]
        omega
      have hempty : (fieldLine f).isEmpty = false := by simp [hline.ne_nil]
      have hroom : Limits.unlimited.headersFull headers.length = false := rfl
      rw [parseFields, if_pos hlt, List.map_cons, splitLine_join pre hline.crlfFree]
      simp only [hempty, hspan, hroom, Bool.false_eq_true, if_false]
      cases fs with
      | nil =>
          refine ⟨[span], ?_, ?_⟩
          · rw [parseFields]
            simp [joinBytes]
          · simpa [joinBytes, readBack] using fieldOf_fieldLine hf tail hspan
      | cons g gs =>
          obtain ⟨spans, hparse, hspans⟩ :=
            ih (fun h hh => hfields h (by simp [hh])) (pre ++ fieldLine f ++ crlf)
              (headers ++ [span])
          refine ⟨span :: spans, ?_, ?_⟩
          · simpa [joinBytes] using hparse
          · have hfirst := fieldOf_fieldLine hf
              (crlf ++ (joinBytes crlf ((g :: gs).map fieldLine) ++ tail)) hspan
            simp only [List.map_cons, joinBytes, readBack, List.append_assoc] at hspans hfirst ⊢
            rw [hspans, hfirst]

/-- The field block of a written head, read from behind its start line. -/
theorem parseFields_written {line : Bytes} (hfree : CrlfFree line)
    {fields : List (Bytes × Bytes)} (hfields : ∀ f ∈ fields, FieldOk f) :
    let block := joinBytes crlf (line :: fields.map fieldLine)
    (splitLine block 0).1 = line ∧
    ∃ spans, parseFields Limits.unlimited block (splitLine block 0).2 [] = (.ok (), spans) ∧
      spans.map (fieldOf (writtenHead line fields)) = readBack fields := by
  intro block
  have hsplit := splitLine_join [] hfree (fields.map fieldLine)
  simp only [List.nil_append, List.length_nil] at hsplit
  rw [hsplit]
  refine ⟨rfl, ?_⟩
  cases fields with
  | nil =>
      refine ⟨[], ?_, rfl⟩
      rw [parseFields]
      simp [block, joinBytes]
  | cons f fs =>
      obtain ⟨spans, hparse, hspans⟩ :=
        parseFields_join (f :: fs) hfields (line ++ crlf) crlfcrlf []
      refine ⟨spans, ?_, ?_⟩
      · simpa [block, joinBytes] using hparse
      · rw [writtenHead_eq_join]
        simpa [joinBytes] using hspans

/-- The fields of a head as it is received, whatever its first line says. -/
def receivedFields (out : Bytes) : List (Bytes × Bytes) :=
  let block := out.take (out.length - 4)
  (parseFields Limits.unlimited block (splitLine block 0).2 []).2.map (fieldOf out)

section Parsing

variable {line : Bytes} {start : StartLine} {fields : List (Bytes × Bytes)}

private theorem take_written (line : Bytes) (fields : List (Bytes × Bytes)) :
    (writtenHead line fields).take ((writtenHead line fields).length - 4) =
      joinBytes crlf (line :: fields.map fieldLine) := by
  rw [writtenHead_eq_join]
  simp [crlfcrlf]

theorem receivedFields_written (hfree : CrlfFree line) (hfields : ∀ f ∈ fields, FieldOk f) :
    receivedFields (writtenHead line fields) = readBack fields := by
  obtain ⟨-, spans, hparse, hspans⟩ := parseFields_written hfree hfields
  simp only [receivedFields, take_written, hparse]
  exact hspans

/-- What a written head is read back as when its start line parses. -/
private theorem parseBlock_written {startLine : Bytes → Except CodecError StartLine}
    (check : Head → Except CodecError Unit) (hstart : startLine line = .ok start)
    (hfree : CrlfFree line) (hfields : ∀ f ∈ fields, FieldOk f) (h0 : Head)
    (hcheck : ∀ read : Head, read.iter (writtenHead line fields) = readBack fields →
      check read = .ok ()) :
    ∃ head, parseBlock Limits.unlimited startLine check (writtenHead line fields)
        (writtenHead line fields).length h0 = (.ok true, head) ∧
      head.start = start ∧ head.iter (writtenHead line fields) = readBack fields := by
  have hblock := take_written line fields
  obtain ⟨hline, spans, hparse, hspans⟩ := parseFields_written hfree hfields
  have hread := hcheck { h0 with start := start, headers := spans } hspans
  refine ⟨⟨start, spans, (writtenHead line fields).length, 0⟩, ?_, rfl, hspans⟩
  simp only [parseBlock, hblock, hline, hstart, hparse, hread]

theorem findHeadEnd_written (hfree : CrlfFree line) (hfields : ∀ f ∈ fields, FieldOk f) :
    findHeadEnd Limits.unlimited (writtenHead line fields) {} =
      (.ok (some (writtenHead line fields).length), {}) := by
  have hlines : ∀ l ∈ fields.map fieldLine, LineOk l := by
    intro l hl
    obtain ⟨f, hf, rfl⟩ := List.mem_map.mp hl
    exact lineOk_fieldLine (hfields f hf)
  have hfind := findSub_join hfree hlines
  rw [← writtenHead_eq_join] at hfind
  have hlen := congrArg List.length (writtenHead_eq_join line fields)
  simp only [List.length_append, crlfcrlf, List.length_cons, List.length_nil] at hlen
  have hroom : ∀ n, Limits.unlimited.headExceeds n = false := fun _ => rfl
  simp only [findHeadEnd, Nat.zero_sub, Nat.zero_min, List.drop_zero, hfind, Option.map_some,
    hroom, Bool.false_eq_true, if_false, hlen]
  congr 3
  omega

/-- A written request head is read back with its start line and its fields. -/
theorem parseRequestHead_written (hstart : parseRequestLine line = .ok start)
    (hfree : CrlfFree line) (hfields : ∀ f ∈ fields, FieldOk f)
    (hhost : (named (readBack fields) (ascii "host")).length ≤ 1) :
    ∃ head, parseRequestHead Limits.unlimited (writtenHead line fields) {} = (.ok true, head) ∧
      head.start = start ∧ head.iter (writtenHead line fields) = readBack fields := by
  obtain ⟨head, hparse, hhead⟩ := parseBlock_written
    (rejectDuplicateHost (writtenHead line fields)) hstart hfree hfields {} (by
      intro read hread
      have hcount : ¬ 1 < (read.headersNamed (writtenHead line fields) (ascii "host")).length := by
        rw [Head.headersNamed, hread]
        omega
      simp only [rejectDuplicateHost, if_neg hcount])
  refine ⟨head, ?_, hhead⟩
  simp only [parseRequestHead, findHeadEnd_written hfree hfields, hparse]

/-- A written response head is read back with its status line and its fields. -/
theorem parseResponseHead_written (hstart : parseStatusLine line = .ok start)
    (hfree : CrlfFree line) (hfields : ∀ f ∈ fields, FieldOk f) :
    ∃ head, parseResponseHead Limits.unlimited (writtenHead line fields) {} = (.ok true, head) ∧
      head.start = start ∧ head.iter (writtenHead line fields) = readBack fields := by
  obtain ⟨head, hparse, hhead⟩ := parseBlock_written (fun _ => .ok ())
    hstart hfree hfields {} (fun _ _ => rfl)
  refine ⟨head, ?_, hhead⟩
  simp only [parseResponseHead, findHeadEnd_written hfree hfields, hparse]

/-- A head whose status line does not parse is refused. -/
theorem parseResponseHead_written_error {e : CodecError} (hstart : parseStatusLine line = .error e)
    (hfree : CrlfFree line) (hfields : ∀ f ∈ fields, FieldOk f) :
    (parseResponseHead Limits.unlimited (writtenHead line fields) {}).1 = .error e := by
  have hblock := take_written line fields
  have hline := (parseFields_written hfree hfields).1
  simp only [parseResponseHead, findHeadEnd_written hfree hfields, parseBlock, hblock, hline,
    hstart]

end Parsing

end Ramjet.Engine.WrittenHead
