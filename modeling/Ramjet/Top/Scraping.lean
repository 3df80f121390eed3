/- digest: What the dashboard reads off the metrics page is what the proxy counted. -/

import Ramjet.Base.FixedWidth
import Ramjet.Proxy.Metrics
import Ramjet.Top.Prom

set_option autoImplicit false
set_option relaxedAutoImplicit false

namespace Ramjet.Top.Scraping

open Ramjet.Base.Octets
open Ramjet.Base.Text
open Ramjet.Base.FixedWidth
open Ramjet.Proxy.Metrics
open Ramjet.Top.Prom

/-- One line of a metrics page. -/
inductive Row
  | comment (text : Bytes)
  | plain (name value : Bytes)
  | labelled (name labels value : Bytes)

def Row.line : Row → Bytes
  | .comment text => 35 :: text
  | .plain name value => name ++ 32 :: value
  | .labelled name labels value => name ++ 123 :: (labels ++ 125 :: 32 :: value)

def page (rows : List Row) : Bytes := rows.flatMap fun r => r.line ++ [10]

/-- A byte that neither ends a word nor opens a label set. -/
def isWord (b : UInt8) : Bool := 33 ≤ b && b ≤ 126 && b != 123

/-- A byte that can stand in a line: printable ASCII. -/
def isShown (b : UInt8) : Bool := 32 ≤ b && b ≤ 126

def Word (text : Bytes) : Prop := text ≠ [] ∧ text.all isWord = true

/-- A line that is read back as what it was written for. -/
def Row.Proper : Row → Prop
  | .comment text => text.all isShown = true ∧ text.getLast?.any isWord = true
  | .plain name value => Word name ∧ name.head? ≠ some 35 ∧ Word value
  | .labelled name labels value => Word name ∧ name.head? ≠ some 35 ∧
      labels.all isShown = true ∧ 125 ∉ labels ∧ Word value

/-- What the scanner makes of a line. -/
def Row.sample {F : Type} (floats : Floats F) : Row → Option (Sample F)
  | .comment _ => none
  | .plain name value => (floats.parse value).map fun v => ⟨name, [], v⟩
  | .labelled name labels value => (floats.parse value).map fun v => ⟨name, labels, v⟩

section Words

variable {text name value labels : Bytes} {b : UInt8}

/-- Whitespace of one character begins and ends outside the printable characters. -/
theorem whitespace_edges {w : Bytes} (hw : w ∈ whitespace) :
    w ≠ [] ∧ w.head?.any isWord = false ∧ w.getLast?.any isWord = false := by
  have hall : ∀ w ∈ whitespace,
      w ≠ [] ∧ w.head?.any isWord = false ∧ w.getLast?.any isWord = false := by
    decide
  exact hall w hw

theorem trimStartUpTo_word (h : text.head?.any isWord = true) (n : Nat) :
    trimStartUpTo n text = text := by
  cases n with
  | zero => rfl
  | succ n =>
      have hnone : (whitespace.find? fun w => w.isPrefixOf text) = none := by
        rw [List.find?_eq_none]
        intro w hw hpre
        obtain ⟨hsome, hblank, -⟩ := whitespace_edges hw
        obtain ⟨rest, rfl⟩ := List.isPrefixOf_iff_prefix.mp hpre
        rw [List.head?_append_of_ne_nil _ hsome, hblank] at h
        cases h
      simp only [trimStartUpTo, hnone]

theorem trimEndUpTo_word (h : text.getLast?.any isWord = true) (n : Nat) :
    trimEndUpTo n text = text := by
  cases n with
  | zero => rfl
  | succ n =>
      have hnone : (whitespace.find? fun w => w.isSuffixOf text) = none := by
        rw [List.find?_eq_none]
        intro w hw hsuf
        obtain ⟨hsome, -, hblank⟩ := whitespace_edges hw
        obtain ⟨front, rfl⟩ := List.isSuffixOf_iff_suffix.mp hsuf
        rw [List.getLast?_append_of_ne_nil _ hsome, hblank] at h
        cases h
      simp only [trimEndUpTo, hnone]

theorem trim_word (hfirst : text.head?.any isWord = true)
    (hlast : text.getLast?.any isWord = true) : trim text = text := by
  rw [trim, trimStartUpTo_word hfirst]
  exact trimEndUpTo_word hlast _

theorem Word.head (h : Word text) : text.head?.any isWord = true := by
  cases text with
  | nil => exact absurd rfl h.1
  | cons b rest => exact List.all_eq_true.mp h.2 b List.mem_cons_self

theorem Word.last (h : Word text) : text.getLast?.any isWord = true := by
  cases hlast : text.getLast? with
  | none => exact absurd (List.getLast?_eq_none_iff.mp hlast) h.1
  | some b => exact List.all_eq_true.mp h.2 b (List.mem_of_getLast? hlast)

theorem Word.not_mem (h : Word text) (hb : isWord b = false) : b ∉ text := by
  intro hmem
  rw [List.all_eq_true.mp h.2 b hmem] at hb
  cases hb

theorem untilWhitespace_word (h : text.all isWord = true) : untilWhitespace text = text := by
  induction text with
  | nil => rfl
  | cons b rest ih =>
      rw [List.all_cons, Bool.and_eq_true] at h
      have hnone : (whitespace.any fun w => w.isPrefixOf (b :: rest)) = false := by
        rw [List.any_eq_false]
        intro w hw hpre
        obtain ⟨hsome, hblank, -⟩ := whitespace_edges hw
        obtain ⟨tail, htail⟩ := List.isPrefixOf_iff_prefix.mp hpre
        have hfirst : w.head? = some b := by
          rw [← List.head?_append_of_ne_nil w hsome, htail]
          rfl
        rw [hfirst, Option.any_some, h.1] at hblank
        cases hblank
      rw [untilWhitespace, hnone, ih h.2]
      rfl

theorem firstToken_word (h : Word value) : firstToken value = some value := by
  unfold firstToken
  rw [trimStartUpTo_word h.head]
  dsimp only
  rw [if_neg (by simpa using h.1), untilWhitespace_word h.2]

/-- The number behind the blank of a sample is read whole. -/
theorem firstToken_blank (h : Word value) : firstToken (32 :: value) = some value := by
  have hblank : (whitespace.find? fun w => w.isPrefixOf (32 :: value)) = some [32] := by
    simp [whitespace, List.find?, List.isPrefixOf]
  have htrimmed : trimStartUpTo (32 :: value).length (32 :: value) = value := by
    rw [List.length_cons, trimStartUpTo, hblank]
    exact trimStartUpTo_word h.head _
  unfold firstToken
  rw [htrimmed]
  dsimp only
  rw [if_neg (by simpa using h.1), untilWhitespace_word h.2]

theorem splitOnce_none (h : b ∉ text) : splitOnce b text = none := by
  cases hsplit : splitOnce b text with
  | none => rfl
  | some p =>
      obtain ⟨rfl, -⟩ := splitOnce_spec hsplit
      exact absurd (List.mem_append_right _ List.mem_cons_self) h

end Words

section Lines

variable {F : Type} (floats : Floats F)

theorem splitSample_line {r : Row} (h : r.Proper) :
    splitSample floats r.line = r.sample floats := by
  cases r with
  | comment text =>
      obtain ⟨-, hlast⟩ := h
      have hsome : text ≠ [] := by
        rintro rfl
        cases hlast
      have htrim : trim (35 :: text) = 35 :: text := by
        refine trim_word rfl ?_
        rw [List.getLast?_cons_of_ne_nil hsome]
        exact hlast
      unfold splitSample Row.line
      rw [htrim]
      rfl
  | plain name value =>
      obtain ⟨hname, hhash, hvalue⟩ := h
      have hfirst : (name ++ 32 :: value).head? = name.head? :=
        List.head?_append_of_ne_nil _ hname.1
      have hlast : (name ++ 32 :: value).getLast? = value.getLast? := by
        rw [List.getLast?_append_of_ne_nil _ (List.cons_ne_nil _ _),
          List.getLast?_cons_of_ne_nil hvalue.1]
      have htrim : trim (name ++ 32 :: value) = name ++ 32 :: value := by
        apply trim_word
        · rw [hfirst]
          exact hname.head
        · rw [hlast]
          exact hvalue.last
      have hsome : ¬ ((name ++ 32 :: value).isEmpty || name.head? == some 35) = true := by
        simp [hhash]
      have hplain : 123 ∉ name ++ 32 :: value := by
        intro hmem
        rcases List.mem_append.mp hmem with hmem | hmem
        · exact hname.not_mem rfl hmem
        · rcases List.mem_cons.mp hmem with heq | hmem
          · cases heq
          · exact hvalue.not_mem rfl hmem
      unfold splitSample Row.line Row.sample
      rw [htrim]
      dsimp only
      rw [hfirst, splitOnce_none hplain]
      dsimp only
      rw [splitOnce_append (hname.not_mem rfl), if_neg hsome]
      show (firstToken value).bind (fun token => (floats.parse token).bind fun v =>
        some (⟨trim name, [], v⟩ : Sample F)) = _
      rw [firstToken_word hvalue, trim_word hname.head hname.last]
      exact Option.map_eq_bind.symm
  | labelled name labels value =>
      obtain ⟨hname, hhash, -, hclosed, hvalue⟩ := h
      have hfirst : (name ++ 123 :: (labels ++ 125 :: 32 :: value)).head? = name.head? :=
        List.head?_append_of_ne_nil _ hname.1
      have hlast : (name ++ 123 :: (labels ++ 125 :: 32 :: value)).getLast? = value.getLast? := by
        rw [List.getLast?_append_of_ne_nil _ (List.cons_ne_nil _ _),
          List.getLast?_cons_of_ne_nil (by simp),
          List.getLast?_append_of_ne_nil _ (List.cons_ne_nil _ _),
          List.getLast?_cons_of_ne_nil (List.cons_ne_nil _ _),
          List.getLast?_cons_of_ne_nil hvalue.1]
      have htrim := trim_word (hfirst.symm ▸ hname.head) (hlast.symm ▸ hvalue.last)
      have hsome : ¬ ((name ++ 123 :: (labels ++ 125 :: 32 :: value)).isEmpty ||
          name.head? == some 35) = true := by
        simp [hhash]
      unfold splitSample Row.line Row.sample
      rw [htrim]
      dsimp only
      rw [hfirst, splitOnce_append (hname.not_mem rfl)]
      dsimp only
      rw [splitOnce_append hclosed, if_neg hsome]
      show (firstToken (32 :: value)).bind (fun token => (floats.parse token).bind fun v =>
        some (⟨trim name, labels, v⟩ : Sample F)) = _
      rw [firstToken_blank hvalue, trim_word hname.head hname.last]
      exact Option.map_eq_bind.symm

theorem isShown_of_word {b : UInt8} (h : isWord b = true) : isShown b = true := by
  unfold isWord isShown at *
  simp only [Bool.and_eq_true, decide_eq_true_eq] at h ⊢
  exact ⟨UInt8.le_trans (by decide : (32 : UInt8) ≤ 33) h.1.1, h.1.2⟩

theorem line_shown {r : Row} (h : r.Proper) : ∀ b ∈ r.line, isShown b = true := by
  have hword : ∀ {text : Bytes}, Word text → ∀ b ∈ text, isShown b = true :=
    fun htext b hb => isShown_of_word (List.all_eq_true.mp htext.2 b hb)
  intro b hb
  cases r with
  | comment text =>
      rcases List.mem_cons.mp hb with rfl | hb
      · rfl
      · exact List.all_eq_true.mp h.1 b hb
  | plain name value =>
      rcases List.mem_append.mp hb with hb | hb
      · exact hword h.1 b hb
      · rcases List.mem_cons.mp hb with rfl | hb
        · rfl
        · exact hword h.2.2 b hb
  | labelled name labels value =>
      obtain ⟨hname, -, hlabels, -, hvalue⟩ := h
      simp only [Row.line, List.mem_append, List.mem_cons] at hb
      rcases hb with hb | rfl | hb | rfl | rfl | hb
      · exact hword hname b hb
      · rfl
      · exact List.all_eq_true.mp hlabels b hb
      · rfl
      · rfl
      · exact hword hvalue b hb

/-- A page falls into its lines again. -/
theorem strLines_page {rows : List Row} (h : ∀ r ∈ rows, r.Proper) :
    strLines (page rows) = rows.map Row.line := by
  have hsplit : (page rows).splitOn 10 = rows.map Row.line ++ [[]] := by
    unfold page
    induction rows with
    | nil => rfl
    | cons r rest ih =>
        have hbreak : 10 ∉ r.line := fun hmem =>
          absurd (line_shown (h r List.mem_cons_self) 10 hmem) (by decide)
        rw [List.flatMap_cons, List.append_assoc, List.singleton_append,
          List.splitOn_append_cons_self_of_not_mem hbreak,
          ih fun r hr => h r (List.mem_cons_of_mem _ hr)]
        rfl
  have hreturn : ∀ line ∈ rows.map Row.line, stripReturn line = line := by
    intro line hline
    obtain ⟨r, hr, rfl⟩ := List.mem_map.mp hline
    unfold stripReturn
    split
    · rename_i hlast
      exact absurd (line_shown (h r hr) 13 (List.mem_of_getLast? hlast)) (by decide)
    · rfl
  unfold strLines
  rw [hsplit]
  dsimp only
  rw [List.dropLast_concat, List.getLast?_concat, List.map_congr_left hreturn, List.map_id']
  exact List.append_nil _

/-- What is left of a snapshot after a line. -/
def passed (s : MetricsSnapshot F) (r : Row) : MetricsSnapshot F :=
  ((r.sample floats).map (take floats s)).getD s

theorem parse_page {rows : List Row} (h : ∀ r ∈ rows, r.Proper) :
    parse floats (page rows) = rows.foldl (passed floats) { latencySumSeconds := floats.zero } := by
  unfold parse
  rw [strLines_page h, List.foldl_map]
  refine List.foldl_ext _ _ _ fun s r hr => ?_
  unfold scan passed
  rw [splitSample_line floats (h r hr)]
  cases r.sample floats <;> rfl

end Lines

section Pages

/-- The two comments before a series. -/
def titles (name help kind : Bytes) : List Row :=
  [.comment (ascii " HELP " ++ (name ++ (ascii " " ++ help))),
    .comment (ascii " TYPE " ++ (name ++ (ascii " " ++ kind)))]

def REQUESTS : Bytes := ascii "ramjet_requests_total"

def LATENCY : Bytes := ascii "ramjet_upstream_latency_seconds"

def classRows (m : Metrics) : List Row :=
  (CLASSES.zip ((List.finRange 6).map m.requests)).map fun (class_, n) =>
    .labelled REQUESTS (ascii "code=\"" ++ (class_ ++ ascii "\"")) (number n)

def latencyRows (seconds : Seconds) (h : Histogram) : List Row :=
  (BUCKETS.zip (running 0 ((List.finRange 12).map h.buckets))).map (fun (bound, n) =>
      .labelled (LATENCY ++ ascii "_bucket") (ascii "le=\"" ++ (bound ++ ascii "\"")) (number n)) ++
    [.labelled (LATENCY ++ ascii "_bucket") (ascii "le=\"+Inf\"") (number h.count),
      .plain (LATENCY ++ ascii "_sum") (seconds.text h.sumNanos),
      .plain (LATENCY ++ ascii "_count") (number h.count)]

def gaugeRows (name help : Bytes) (value : Counter) : List Row :=
  titles name help (ascii "gauge") ++ [.plain name (signedDecimal value.toInt)]

def counterRows (name help : Bytes) (value : Counter) : List Row :=
  titles name help (ascii "counter") ++ [.plain name (number value)]

/-- The lines of a metrics page. -/
def rowsOf (seconds : Seconds) (m : Metrics) (generation : Counter) (pinned : Bool) : List Row :=
  titles REQUESTS (ascii "Responses served, by status class.") (ascii "counter") ++ classRows m ++
    titles LATENCY (ascii "Time from upstream dispatch to response headers.")
      (ascii "histogram") ++
    latencyRows seconds m.upstreamLatency ++
    gaugeRows (ascii "ramjet_active_connections")
      (ascii "Downstream connections currently being served.") m.activeConnections ++
    gaugeRows (ascii "ramjet_route_table_generation")
      (ascii "Generation of the currently published route table.") generation ++
    gaugeRows (ascii "ramjet_pinned")
      (ascii "1 when a rollback is holding publication at a chosen generation.")
      (if pinned then 1 else 0) ++
    (Proxy.Metrics.plain m).flatMap fun (name, help, value) => counterRows name help value

theorem page_append (a b : List Row) : page (a ++ b) = page a ++ page b := List.flatMap_append

theorem page_titles (name help kind : Bytes) : page (titles name help kind) =
    writeln [ascii "# HELP ", name, ascii " ", help] ++
      writeln [ascii "# TYPE ", name, ascii " ", kind] := by
  have hhelp : ascii "# HELP " = 35 :: ascii " HELP " := by decide
  have htype : ascii "# TYPE " = 35 :: ascii " TYPE " := by decide
  simp [page, titles, Row.line, writeln, hhelp, htype]

theorem page_plain (name value : Bytes) :
    page [.plain name value] = writeln [name, ascii " ", value] := by
  have hblank : ascii " " = [32] := by decide
  simp [page, Row.line, writeln, hblank]

/-- The kind of a series, and the blank before it. -/
theorem writeln_type (name kind : Bytes) :
    writeln [ascii "# TYPE ", name, ascii " ", kind] =
      writeln [ascii "# TYPE ", name, ascii " " ++ kind] := by
  simp [writeln]

theorem page_gauge (name help : Bytes) (value : Counter) :
    page (gaugeRows name help value) = Proxy.Metrics.gauge name help value := by
  have hkind : ascii " gauge" = ascii " " ++ ascii "gauge" := by decide
  unfold gaugeRows Proxy.Metrics.gauge
  rw [page_append, page_titles, page_plain, writeln_type, hkind]

theorem page_counter (name help : Bytes) (value : Counter) :
    page (counterRows name help value) = counter name help value := by
  have hkind : ascii " counter" = ascii " " ++ ascii "counter" := by decide
  unfold counterRows counter
  rw [page_append, page_titles, page_plain, writeln_type, hkind]

theorem page_map {α : Type} (f : α → Row) (xs : List α) :
    page (xs.map f) = xs.flatMap fun x => (f x).line ++ [10] := List.flatMap_map ..

/-- How a label set ends. -/
theorem ascii_close : ascii "\"\x7d " = ascii "\"" ++ [125, 32] := by decide

theorem page_latency (seconds : Seconds) (h : Histogram) :
    page (latencyRows seconds h) = h.render seconds LATENCY := by
  have hopen : ascii "_bucket\x7ble=\"" = ascii "_bucket" ++ 123 :: ascii "le=\"" := by decide
  have hlast : ascii "_bucket\x7ble=\"+Inf\"\x7d " =
      ascii "_bucket" ++ 123 :: (ascii "le=\"+Inf\"" ++ [125, 32]) := by decide
  have hsum : ascii "_sum " = ascii "_sum" ++ [32] := by decide
  have hcount : ascii "_count " = ascii "_count" ++ [32] := by decide
  unfold latencyRows Histogram.render
  rw [page_append, page_map]
  simp [page, Row.line, writeln, hopen, ascii_close, hlast, hsum, hcount]

theorem page_classes (m : Metrics) : page (classRows m) =
    (CLASSES.zip ((List.finRange 6).map m.requests)).flatMap (fun (class_, n) =>
      writeln [ascii "ramjet_requests_total\x7bcode=\"", class_, ascii "\"\x7d ", number n]) := by
  have hopen : ascii "ramjet_requests_total\x7bcode=\"" =
      REQUESTS ++ 123 :: ascii "code=\"" := by decide
  unfold classRows
  rw [page_map]
  simp [Row.line, writeln, hopen, ascii_close]

/-- The page is what its lines are. -/
theorem page_rowsOf (seconds : Seconds) (m : Metrics) (generation : Counter) (pinned : Bool) :
    page (rowsOf seconds m generation pinned) =
      renderPrometheus seconds m generation pinned := by
  have hrequests : page (titles REQUESTS (ascii "Responses served, by status class.")
      (ascii "counter")) =
      ascii "# HELP ramjet_requests_total Responses served, by status class.\n" ++
        ascii "# TYPE ramjet_requests_total counter\n" := by decide +kernel
  have hlatency : page (titles LATENCY
      (ascii "Time from upstream dispatch to response headers.") (ascii "histogram")) =
      ascii ("# HELP ramjet_upstream_latency_seconds Time from upstream dispatch to response " ++
        "headers.\n") ++ ascii "# TYPE ramjet_upstream_latency_seconds histogram\n" := by
    decide +kernel
  have hcounters : page ((Proxy.Metrics.plain m).flatMap fun (name, help, value) =>
      counterRows name help value) =
      (Proxy.Metrics.plain m).flatMap fun (name, help, value) => counter name help value := by
    unfold page
    rw [List.flatMap_assoc]
    exact List.flatMap_congr fun p _ => page_counter p.1 p.2.1 p.2.2
  unfold rowsOf renderPrometheus
  simp only [page_append, hrequests, hlatency, page_classes, page_latency, page_gauge, hcounters]
  simp only [List.append_assoc]
  rfl

end Pages

section Propriety

instance : DecidablePred Word := fun text => inferInstanceAs (Decidable (text ≠ [] ∧ _))

instance : DecidablePred Row.Proper
  | .comment _ => inferInstanceAs (Decidable (_ ∧ _))
  | .plain _ _ => inferInstanceAs (Decidable (_ ∧ _ ∧ _))
  | .labelled _ _ _ => inferInstanceAs (Decidable (_ ∧ _ ∧ _ ∧ _ ∧ _))

theorem isWord_of_alphanumeric {b : UInt8} (h : isAsciiAlphanumeric b = true) :
    isWord b = true := by
  unfold isAsciiAlphanumeric isAsciiDigit at h
  unfold isWord
  simp only [Bool.or_eq_true, Bool.and_eq_true, decide_eq_true_eq, UInt8.le_iff_toNat_le] at h
  simp only [Bool.and_eq_true, decide_eq_true_eq, bne_iff_ne, UInt8.le_iff_toNat_le, ne_eq,
    ← UInt8.toNat_inj]
  have hsmall : b.toNat < 256 := b.toNat_lt
  simp only [UInt8.reduceToNat] at *
  omega

theorem decimal_word (n : Nat) : Word (decimal n) := by
  refine ⟨?_, List.all_eq_true.mpr fun b hb => isWord_of_alphanumeric
    (isAsciiAlphanumeric_of_mem_numeral (by omega) (by omega) hb)⟩
  unfold decimal
  rw [numeral]
  split <;> simp

theorem signedDecimal_word (z : Int) : Word (signedDecimal z) := by
  unfold signedDecimal
  split
  · refine ⟨by simp [ascii], ?_⟩
    rw [List.all_append, (decimal_word z.natAbs).2]
    rfl
  · exact decimal_word z.natAbs

theorem plain_proper {name value : Bytes} (hname : Word name ∧ name.head? ≠ some 35)
    (hvalue : Word value) : (Row.plain name value).Proper := ⟨hname.1, hname.2, hvalue⟩

/-- The names and help texts of the plain counters. -/
theorem plain_proper_titles (m : Metrics) : ∀ p ∈ Proxy.Metrics.plain m,
    (∀ r ∈ titles p.1 p.2.1 (ascii "counter"), r.Proper) ∧ Word p.1 ∧ p.1.head? ≠ some 35 := by
  have hall : ∀ q ∈ (Proxy.Metrics.plain {}).map fun p => (p.1, p.2.1),
      (∀ r ∈ titles q.1 q.2 (ascii "counter"), r.Proper) ∧ Word q.1 ∧ q.1.head? ≠ some 35 := by
    unfold Proxy.Metrics.plain titles
    repeat rw [ascii_ofList]
    decide +kernel
  have hsame : (Proxy.Metrics.plain m).map (fun p => (p.1, p.2.1)) =
      (Proxy.Metrics.plain {}).map fun p => (p.1, p.2.1) := rfl
  intro p hp
  exact hall (p.1, p.2.1) (hsame ▸ List.mem_map_of_mem hp)

theorem classRows_proper (m : Metrics) : ∀ r ∈ classRows m, r.Proper := by
  have hlabels : ∀ c ∈ CLASSES, (ascii "code=\"" ++ (c ++ ascii "\"")).all isShown = true ∧
      125 ∉ ascii "code=\"" ++ (c ++ ascii "\"") := by
    decide
  intro r hr
  obtain ⟨⟨c, n⟩, hmem, rfl⟩ := List.mem_map.mp hr
  obtain ⟨hshown, hopen⟩ := hlabels c (List.of_mem_zip hmem).1
  exact ⟨by decide, by decide, hshown, hopen, decimal_word _⟩

theorem latencyRows_proper {seconds : Seconds} (hwords : ∀ n, Word (seconds.text n))
    (h : Histogram) : ∀ r ∈ latencyRows seconds h, r.Proper := by
  have hlabels : ∀ c ∈ BUCKETS, (ascii "le=\"" ++ (c ++ ascii "\"")).all isShown = true ∧
      125 ∉ ascii "le=\"" ++ (c ++ ascii "\"") := by
    decide
  have hbucket : Word (LATENCY ++ ascii "_bucket") ∧
      (LATENCY ++ ascii "_bucket").head? ≠ some 35 := by decide
  have hsum : Word (LATENCY ++ ascii "_sum") ∧ (LATENCY ++ ascii "_sum").head? ≠ some 35 := by
    decide
  have hcount : Word (LATENCY ++ ascii "_count") ∧
      (LATENCY ++ ascii "_count").head? ≠ some 35 := by decide
  intro r hr
  rcases List.mem_append.mp hr with hr | hr
  · obtain ⟨⟨c, n⟩, hmem, rfl⟩ := List.mem_map.mp hr
    obtain ⟨hshown, hopen⟩ := hlabels c (List.of_mem_zip hmem).1
    exact ⟨hbucket.1, hbucket.2, hshown, hopen, decimal_word _⟩
  · simp only [List.mem_cons, List.not_mem_nil, or_false] at hr
    rcases hr with rfl | rfl | rfl
    · exact ⟨hbucket.1, hbucket.2, by decide, by decide, decimal_word _⟩
    · exact plain_proper hsum (hwords _)
    · exact plain_proper hcount (decimal_word _)

theorem gaugeRows_proper {name help : Bytes} (value : Counter)
    (htitles : ∀ r ∈ titles name help (ascii "gauge"), r.Proper)
    (hname : Word name ∧ name.head? ≠ some 35) : ∀ r ∈ gaugeRows name help value, r.Proper := by
  intro r hr
  rcases List.mem_append.mp hr with hr | hr
  · exact htitles r hr
  · rw [List.mem_singleton.mp hr]
    exact plain_proper hname (signedDecimal_word _)

/-- Every line of the page can be read back. -/
theorem rowsOf_proper {seconds : Seconds} (hwords : ∀ n, Word (seconds.text n)) (m : Metrics)
    (generation : Counter) (pinned : Bool) :
    ∀ r ∈ rowsOf seconds m generation pinned, r.Proper := by
  intro r hr
  simp only [rowsOf, List.mem_append] at hr
  rcases hr with ((((((hr | hr) | hr) | hr) | hr) | hr) | hr) | hr
  · revert r
    decide +kernel
  · exact classRows_proper m r hr
  · revert r
    decide +kernel
  · exact latencyRows_proper hwords _ r hr
  · exact gaugeRows_proper _ (by decide +kernel) (by decide +kernel) r hr
  · exact gaugeRows_proper _ (by decide +kernel) (by decide +kernel) r hr
  · exact gaugeRows_proper _ (by decide +kernel) (by decide +kernel) r hr
  · obtain ⟨p, hp, hr⟩ := List.mem_flatMap.mp hr
    obtain ⟨htitles, hname⟩ := plain_proper_titles m p hp
    rcases List.mem_append.mp hr with hr | hr
    · exact htitles r hr
    · rw [List.mem_singleton.mp hr]
      exact plain_proper hname (decimal_word _)

end Propriety

section Snapshots

variable {F : Type} (floats : Floats F)

/-- The series that the dashboard displays. -/
def DISPLAYED : List Bytes :=
  [ascii "ramjet_requests_total", ascii "ramjet_active_connections",
    ascii "ramjet_route_table_generation", ascii "ramjet_upstream_latency_seconds_sum",
    ascii "ramjet_upstream_latency_seconds_count", ascii "ramjet_pinned"]

/-- A line of a series that is not displayed. -/
def Row.Skipped : Row → Prop
  | .comment _ => True
  | .plain name _ => name ∉ DISPLAYED
  | .labelled name _ _ => name ∉ DISPLAYED

theorem passed_plain (s : MetricsSnapshot F) {name value : Bytes} {v : F}
    (h : floats.parse value = some v) :
    passed floats s (.plain name value) = take floats s ⟨name, [], v⟩ := by
  show (((floats.parse value).map fun v => (⟨name, [], v⟩ : Sample F)).map _).getD s = _
  rw [h]
  rfl

theorem passed_labelled (s : MetricsSnapshot F) {name labels value : Bytes} {v : F}
    (h : floats.parse value = some v) :
    passed floats s (.labelled name labels value) = take floats s ⟨name, labels, v⟩ := by
  show (((floats.parse value).map fun v => (⟨name, labels, v⟩ : Sample F)).map _).getD s = _
  rw [h]
  rfl

theorem take_skipped (s : MetricsSnapshot F) {sample : Sample F} (h : sample.name ∉ DISPLAYED) :
    take floats s sample = s := by
  unfold DISPLAYED at h
  simp only [List.mem_cons, List.not_mem_nil, or_false, not_or] at h
  obtain ⟨hrequests, hactive, hgeneration, hseconds, hobserved, hpinned⟩ := h
  unfold take
  rw [if_neg hrequests, if_neg hactive, if_neg hgeneration, if_neg hseconds, if_neg hobserved,
    if_neg hpinned]

theorem passed_skipped (s : MetricsSnapshot F) {rows : List Row} (h : ∀ r ∈ rows, r.Skipped) :
    rows.foldl (passed floats) s = s := by
  have hone : ∀ r : Row, r.Skipped → passed floats s r = s := by
    intro r hr
    cases hsample : r.sample floats with
    | none =>
        unfold passed
        rw [hsample]
        rfl
    | some sample =>
        have hname : sample.name ∉ DISPLAYED := by
          cases r with
          | comment => cases hsample
          | plain | labelled =>
              obtain ⟨v, -, rfl⟩ := Option.map_eq_some_iff.mp hsample
              exact hr
        unfold passed
        rw [hsample]
        exact take_skipped floats s hname
  induction rows with
  | nil => rfl
  | cons r rest ih =>
      rw [List.foldl_cons, hone r (h r List.mem_cons_self)]
      exact ih fun r hr => h r (List.mem_cons_of_mem _ hr)

/-- How `f64` reads what the proxy writes: whole numbers of up to 53 bits exactly, and a sum of
nanoseconds in seconds as a number that is not negative. -/
structure Reads (seconds : Seconds) : Prop where
  counter : ∀ n, n ≤ 2 ^ 53 → ∃ v, floats.parse (decimal n) = some v ∧
    floats.isFinite v = true ∧ (floats.positive v = true ↔ 0 < n) ∧ floats.toU64 v = n
  signed : ∀ z : Int, z.natAbs ≤ 2 ^ 53 → ∃ v, floats.parse (signedDecimal z) = some v ∧
    floats.isFinite v = true ∧ floats.toI64 v = z
  sum : ∀ n, Word (seconds.text n) ∧ ∃ v, floats.parse (seconds.text n) = some v ∧
    floats.isFinite v = true ∧ floats.negative v = false

variable {floats} {seconds : Seconds}

theorem Reads.asCounter (h : Reads floats seconds) {n : Nat} (hn : n ≤ 2 ^ 53) :
    ∃ v, floats.parse (decimal n) = some v ∧ asCounter floats v = n := by
  obtain ⟨v, hparse, hfinite, hpositive, hvalue⟩ := h.counter n hn
  refine ⟨v, hparse, ?_⟩
  unfold Prom.asCounter
  rw [hfinite, Bool.true_and]
  split
  · exact hvalue
  · rename_i hnone
    have hzero : ¬ 0 < n := fun hpos => hnone (hpositive.mpr hpos)
    omega

/-- Every class adds its count, and one of them to the errors too. -/
theorem passed_class (h : Reads floats seconds) (s : MetricsSnapshot F) {c : Bytes}
    (hc : c ∈ CLASSES) {n : Counter} (hn : n.toNat ≤ 2 ^ 53) :
    passed floats s (.labelled REQUESTS (ascii "code=\"" ++ (c ++ ascii "\"")) (number n)) =
      { s with
        requestsTotal := saturatingAdd s.requestsTotal n.toNat
        errors5xxTotal :=
          if c = ascii "5xx" then saturatingAdd s.errors5xxTotal n.toNat
          else s.errors5xxTotal } := by
  have hlabel : ∀ c ∈ CLASSES,
      label (ascii "code=\"" ++ (c ++ ascii "\"")) (ascii "code") = some c := by
    decide +kernel
  obtain ⟨v, hparse, hcount⟩ := h.asCounter hn
  have hrequests : (⟨REQUESTS, ascii "code=\"" ++ (c ++ ascii "\""), v⟩ : Sample F).name =
      ascii "ramjet_requests_total" := rfl
  rw [number, passed_labelled floats s hparse, take, if_pos hrequests]
  dsimp only
  rw [hlabel c hc, hcount]
  rfl

theorem displayed_nodup : DISPLAYED.Nodup := by
  unfold DISPLAYED
  repeat rw [ascii_ofList]
  decide +kernel

/-- The gauges, and the sum and the count of the histogram. -/
theorem take_others (s : MetricsSnapshot F) (v : F) :
    take floats s ⟨ascii "ramjet_active_connections", [], v⟩ =
        (if floats.isFinite v then { s with activeConnections := some (floats.toI64 v) } else s) ∧
      take floats s ⟨ascii "ramjet_route_table_generation", [], v⟩ =
        { s with generation := some (asCounter floats v) } ∧
      take floats s ⟨ascii "ramjet_upstream_latency_seconds_sum", [], v⟩ =
        (if floats.isFinite v && !floats.negative v then { s with latencySumSeconds := v }
          else s) ∧
      take floats s ⟨ascii "ramjet_upstream_latency_seconds_count", [], v⟩ =
        { s with latencyCount := asCounter floats v } ∧
      take floats s ⟨ascii "ramjet_pinned", [], v⟩ =
        { s with
          pinned := if 0 < asCounter floats v then some (asCounter floats v) else none } := by
  have hdistinct := displayed_nodup
  unfold DISPLAYED at hdistinct
  simp only [List.nodup_cons, List.mem_cons, List.not_mem_nil, or_false, not_or] at hdistinct
  obtain ⟨⟨h12, h13, h14, h15, h16⟩, ⟨h23, h24, h25, h26⟩, ⟨h34, h35, h36⟩, ⟨h45, h46⟩, h56, -⟩ :=
    hdistinct
  unfold take
  dsimp only
  refine ⟨?_, ?_, ?_, ?_, ?_⟩
  · rw [if_neg (Ne.symm h12), if_pos rfl]
  · rw [if_neg (Ne.symm h13), if_neg (Ne.symm h23), if_pos rfl]
  · rw [if_neg (Ne.symm h14), if_neg (Ne.symm h24), if_neg (Ne.symm h34), if_pos rfl]
  · rw [if_neg (Ne.symm h15), if_neg (Ne.symm h25), if_neg (Ne.symm h35), if_neg (Ne.symm h45),
      if_pos rfl]
  · rw [if_neg (Ne.symm h16), if_neg (Ne.symm h26), if_neg (Ne.symm h36), if_neg (Ne.symm h46),
      if_neg (Ne.symm h56), if_pos rfl]

theorem titles_skipped (s : MetricsSnapshot F) (name help kind : Bytes) :
    (titles name help kind).foldl (passed floats) s = s := by
  refine passed_skipped floats s fun r hr => ?_
  simp only [titles, List.mem_cons, List.not_mem_nil, or_false] at hr
  rcases hr with rfl | rfl <;> trivial

/-- The responses that an engine counted, of all classes. -/
def responses (m : Metrics) : Nat := ((List.finRange 6).map fun i => (m.requests i).toNat).sum

theorem passed_counts (h : Reads floats seconds) {counts : List (Bytes × Counter)}
    (hcounts : ∀ p ∈ counts, p.1 ∈ CLASSES ∧ p.2.toNat ≤ 2 ^ 53) (s : MetricsSnapshot F) :
    (counts.map fun (class_, n) =>
        Row.labelled REQUESTS (ascii "code=\"" ++ (class_ ++ ascii "\"")) (number n)).foldl
          (passed floats) s =
      { s with
        requestsTotal := (counts.map (·.2.toNat)).foldl saturatingAdd s.requestsTotal
        errors5xxTotal := ((counts.filter (·.1 = ascii "5xx")).map (·.2.toNat)).foldl saturatingAdd
          s.errors5xxTotal } := by
  induction counts generalizing s with
  | nil => rfl
  | cons p rest ih =>
      obtain ⟨hclass, hsmall⟩ := hcounts p List.mem_cons_self
      rw [List.map_cons, List.foldl_cons, passed_class h s hclass hsmall,
        ih fun q hq => hcounts q (List.mem_cons_of_mem _ hq), List.filter_cons]
      by_cases herror : p.1 = ascii "5xx"
      · simp only [herror, decide_true, if_true, List.map_cons, List.foldl_cons]
      · simp only [herror, decide_false, Bool.false_eq_true, if_false, List.map_cons,
          List.foldl_cons]

/-- Saturation is out of reach of what the page can say. -/
theorem saturating_sum {counts : List Nat} {a : Nat} (h : a + counts.sum ≤ Prom.U64_MAX) :
    counts.foldl saturatingAdd a = a + counts.sum := by
  induction counts generalizing a with
  | nil => rfl
  | cons n rest ih =>
      rw [List.sum_cons] at h
      have hn : saturatingAdd a n = a + n := Nat.min_eq_left (by omega)
      rw [List.foldl_cons, hn, List.sum_cons, ih (by omega), Nat.add_assoc]

theorem passed_classRows (h : Reads floats seconds) (m : Metrics)
    (hsmall : ∀ i, (m.requests i).toNat ≤ 2 ^ 53) (zero : F) :
    (classRows m).foldl (passed floats) { latencySumSeconds := zero } =
      { requestsTotal := responses m, errors5xxTotal := (m.requests 4).toNat
        latencySumSeconds := zero } := by
  have hcounts : ∀ p ∈ CLASSES.zip ((List.finRange 6).map m.requests),
      p.1 ∈ CLASSES ∧ p.2.toNat ≤ 2 ^ 53 := by
    rintro ⟨c, n⟩ hp
    obtain ⟨hc, hn⟩ := List.of_mem_zip hp
    obtain ⟨i, -, rfl⟩ := List.mem_map.mp hn
    exact ⟨hc, hsmall i⟩
  have hall : (CLASSES.zip ((List.finRange 6).map m.requests)).map (·.2.toNat) =
      (List.finRange 6).map fun i => (m.requests i).toNat := rfl
  have herrors : (CLASSES.zip ((List.finRange 6).map m.requests)).filter (·.1 = ascii "5xx") =
      [(ascii "5xx", m.requests 4)] := rfl
  have hsum : responses m ≤ 6 * 2 ^ 53 := by
    show (m.requests 0).toNat + ((m.requests 1).toNat + ((m.requests 2).toNat +
      ((m.requests 3).toNat + ((m.requests 4).toNat + ((m.requests 5).toNat + 0))))) ≤ _
    have h0 := hsmall 0
    have h1 := hsmall 1
    have h2 := hsmall 2
    have h3 := hsmall 3
    have h4 := hsmall 4
    have h5 := hsmall 5
    omega
  have herror := hsmall 4
  unfold classRows
  rw [passed_counts h hcounts, hall, herrors, saturating_sum, saturating_sum]
  · simp only [responses, List.map_cons, List.map_nil, List.sum_cons, List.sum_nil, zero_add,
      add_zero]
  · simp only [List.map_cons, List.map_nil, List.sum_cons, List.sum_nil, Prom.U64_MAX]
    omega
  · show 0 + responses m ≤ Prom.U64_MAX
    unfold Prom.U64_MAX
    omega

theorem plain_skipped (m : Metrics) : ∀ p ∈ Proxy.Metrics.plain m, p.1 ∉ DISPLAYED := by
  have hall : ∀ name ∈ (Proxy.Metrics.plain {}).map (·.1), name ∉ DISPLAYED := by
    unfold Proxy.Metrics.plain DISPLAYED
    repeat rw [ascii_ofList]
    decide +kernel
  have hsame : (Proxy.Metrics.plain m).map (·.1) = (Proxy.Metrics.plain {}).map (·.1) := rfl
  intro p hp
  exact hall p.1 (hsame ▸ List.mem_map_of_mem hp)

/-- A number that is not too large is written alike with and without a sign. -/
theorem signed_number {n : Counter} (h : n.toNat ≤ 2 ^ 53) :
    signedDecimal n.toInt = decimal n.toNat := by
  have hplain : n.toInt = n.toNat := by
    rw [BitVec.toInt_eq_toNat_cond]
    split <;> omega
  unfold signedDecimal
  rw [hplain, if_neg (by omega)]
  rfl

/-- A gauge of a series that is displayed. -/
theorem passed_gauge (s : MetricsSnapshot F) {name help : Bytes} {value : Counter} {v : F}
    (h : floats.parse (signedDecimal value.toInt) = some v) :
    (gaugeRows name help value).foldl (passed floats) s = take floats s ⟨name, [], v⟩ := by
  unfold gaugeRows
  rw [List.foldl_append, titles_skipped, List.foldl_cons, List.foldl_nil, passed_plain floats s h]

theorem passed_latencyRows (h : Reads floats seconds) (s : MetricsSnapshot F) (x : Histogram)
    (hsmall : x.count.toNat ≤ 2 ^ 53) : ∃ v, floats.parse (seconds.text x.sumNanos) = some v ∧
      (latencyRows seconds x).foldl (passed floats) s =
        { s with latencySumSeconds := v, latencyCount := x.count.toNat } := by
  have hbucket : LATENCY ++ ascii "_bucket" ∉ DISPLAYED := by
    unfold DISPLAYED LATENCY
    repeat rw [ascii_ofList]
    decide +kernel
  have hsum : LATENCY ++ ascii "_sum" = ascii "ramjet_upstream_latency_seconds_sum" := by
    unfold LATENCY
    repeat rw [ascii_ofList]
    rfl
  have hcount : LATENCY ++ ascii "_count" = ascii "ramjet_upstream_latency_seconds_count" := by
    unfold LATENCY
    repeat rw [ascii_ofList]
    rfl
  obtain ⟨v, hparse, hfinite, hpositive⟩ := (h.sum x.sumNanos).2
  obtain ⟨n, hnumber, hn⟩ := h.asCounter hsmall
  have hbuckets : ∀ s : MetricsSnapshot F, ((BUCKETS.zip (running 0 ((List.finRange 12).map
      x.buckets))).map (fun (bound, n) => Row.labelled (LATENCY ++ ascii "_bucket")
        (ascii "le=\"" ++ (bound ++ ascii "\"")) (number n))).foldl (passed floats) s = s := by
    refine fun s => passed_skipped floats s fun r hr => ?_
    obtain ⟨p, -, rfl⟩ := List.mem_map.mp hr
    exact hbucket
  have hlast : ∀ s : MetricsSnapshot F, passed floats s (.labelled (LATENCY ++ ascii "_bucket")
      (ascii "le=\"+Inf\"") (number x.count)) = s := by
    intro s
    have hskipped : ∀ r ∈ [Row.labelled (LATENCY ++ ascii "_bucket") (ascii "le=\"+Inf\"")
        (number x.count)], r.Skipped := by
      intro r hr
      rw [List.mem_singleton.mp hr]
      exact hbucket
    exact passed_skipped floats s hskipped
  refine ⟨v, hparse, ?_⟩
  unfold latencyRows
  rw [List.foldl_append, hbuckets, List.foldl_cons, hlast, List.foldl_cons,
    passed_plain floats s hparse, hsum, (take_others s v).2.2.1, hfinite, hpositive,
    List.foldl_cons, number, passed_plain _ _ hnumber, hcount, (take_others _ n).2.2.2.1, hn]
  rfl

end Snapshots

section RoundTrip

variable {F : Type} {floats : Floats F} {seconds : Seconds}

/-- The dashboard reads off the page what was counted, as far as `f64` is exact. Of a generation
that is held it only learns that there is one. -/
theorem parse_renderPrometheus (h : Reads floats seconds) (m : Metrics) (generation : Counter)
    (pinned : Bool) (hrequests : ∀ i, (m.requests i).toNat ≤ 2 ^ 53)
    (hcount : m.upstreamLatency.count.toNat ≤ 2 ^ 53)
    (hactive : m.activeConnections.toInt.natAbs ≤ 2 ^ 53)
    (hgeneration : generation.toNat ≤ 2 ^ 53) :
    ∃ sum, floats.parse (seconds.text m.upstreamLatency.sumNanos) = some sum ∧
      Prom.parse floats (renderPrometheus seconds m generation pinned) =
        { requestsTotal := responses m, errors5xxTotal := (m.requests 4).toNat
          activeConnections := some m.activeConnections.toInt
          generation := some generation.toNat, latencySumSeconds := sum
          latencyCount := m.upstreamLatency.count.toNat
          pinned := if pinned then some 1 else none } := by
  have hproper := rowsOf_proper (fun n => (h.sum n).1) m generation pinned
  have hcounters : ∀ s : MetricsSnapshot F, ((Proxy.Metrics.plain m).flatMap
      fun (name, help, value) => counterRows name help value).foldl (passed floats) s = s := by
    refine fun s => passed_skipped floats s fun r hr => ?_
    obtain ⟨p, hp, hr⟩ := List.mem_flatMap.mp hr
    simp only [counterRows, titles, List.mem_append, List.mem_cons, List.not_mem_nil,
      or_false] at hr
    rcases hr with (rfl | rfl) | rfl
    · trivial
    · trivial
    · exact plain_skipped m p hp
  obtain ⟨sum, hsum, hlatency⟩ := passed_latencyRows h
    { requestsTotal := responses m, errors5xxTotal := (m.requests 4).toNat
      latencySumSeconds := floats.zero } m.upstreamLatency hcount
  obtain ⟨a, hparsed, hfinite, ha⟩ := h.signed m.activeConnections.toInt hactive
  obtain ⟨g, hg, hgen⟩ := h.asCounter hgeneration
  rw [← signed_number hgeneration] at hg
  have hflag : (if pinned then 1 else 0 : Counter).toNat ≤ 2 ^ 53 := by
    cases pinned <;> decide
  obtain ⟨p, hp, hpin⟩ := h.asCounter hflag
  rw [← signed_number hflag] at hp
  refine ⟨sum, hsum, ?_⟩
  rw [← page_rowsOf, parse_page floats hproper]
  unfold rowsOf
  simp only [List.foldl_append, hcounters, titles_skipped]
  rw [passed_classRows h m hrequests, hlatency, passed_gauge _ hparsed, passed_gauge _ hg,
    passed_gauge _ hp, (take_others _ a).1, hfinite, (take_others _ g).2.1,
    (take_others _ p).2.2.2.2, hpin, hgen, ha]
  cases pinned <;> rfl

end RoundTrip

section Exactly

/-- The page's numbers in millionths: exact where the page shows no more than six decimals. -/
def millionths : Floats Int where
  parse text :=
    match splitOnce 46 text with
    | some (whole, decimals) => do
        let whole ← parseDigits whole
        let decimals ← parseDigits decimals
        some (whole * 1000000 + decimals : Nat)
    | none => (parseI64 text).map (· * 1000000)
  isFinite _ := true
  positive v := 0 < v
  negative v := v < 0
  toU64 v := (v / 1000000).toNat
  toI64 v := v / 1000000
  zero := 0

/-- Seconds of whole microseconds. -/
def microseconds : Seconds where
  within elapsed i := elapsed ≤ [1000000, 2500000, 5000000, 10000000, 25000000, 50000000, 100000000,
    250000000, 500000000, 1000000000, 5000000000, 10000000000].getD i 0
  text n := decimal (n.toNat / 1000000000) ++ 46 :: fixed 6 (n.toNat / 1000 % 1000000)

theorem decimal_digits (n : Nat) : ∀ b ∈ decimal n, isAsciiAlphanumeric b = true :=
  fun _ => isAsciiAlphanumeric_of_mem_numeral (by omega) (by omega)

theorem parseDigits_decimal (n : Nat) : parseDigits (decimal n) = some n := by
  have hread := parseUnsigned_decimal (Nat.le_refl n)
  rw [trim_alphanumeric (decimal_digits n)] at hread
  have hplus : dropPlus (decimal n) = decimal n := by
    unfold dropPlus
    split
    · rename_i hhead
      exact absurd (decimal_digits n 43 (List.mem_of_mem_head? hhead)) (by decide)
    · rfl
  unfold parseUnsigned at hread
  rw [hplus] at hread
  exact (Option.filter_eq_some_iff.mp hread).1

theorem parse_decimal {n : Nat} (h : n ≤ 2 ^ 53) :
    millionths.parse (decimal n) = some ((n : Int) * 1000000) := by
  have hpoint : splitOnce 46 (decimal n) = none :=
    splitOnce_none fun hmem => absurd (decimal_digits n 46 hmem) (by decide)
  have hsign : ¬ (decimal n).head? = some 45 := fun hhead =>
    absurd (decimal_digits n 45 (List.mem_of_mem_head? hhead)) (by decide)
  have hread : parseUnsigned I64_MAX (decimal n) = some n := by
    have hbound : n ≤ I64_MAX := by
      unfold I64_MAX
      omega
    have hread := parseUnsigned_decimal hbound
    rwa [trim_alphanumeric (decimal_digits n)] at hread
  unfold millionths parseI64
  dsimp only
  rw [hpoint]
  dsimp only
  rw [if_neg hsign, hread]
  rfl

theorem parse_signed {z : Int} (h : z.natAbs ≤ 2 ^ 53) :
    millionths.parse (signedDecimal z) = some (z * 1000000) := by
  unfold signedDecimal
  split
  · rename_i hneg
    have hpoint : splitOnce 46 (ascii "-" ++ decimal z.natAbs) = none := by
      refine splitOnce_none fun hmem => ?_
      rcases List.mem_append.mp hmem with hmem | hmem
      · revert hmem
        decide
      · exact absurd (decimal_digits _ 46 hmem) (by decide)
    have hread : parseI64 (ascii "-" ++ decimal z.natAbs) = some (-(z.natAbs : Int)) := by
      have hlimit : (some z.natAbs).filter (· ≤ I64_MAX + 1) = some z.natAbs := by
        unfold I64_MAX
        simp only [Option.filter_some, decide_eq_true_eq]
        rw [if_pos (by omega)]
      show ((parseDigits (decimal z.natAbs)).filter (· ≤ I64_MAX + 1)).map _ = _
      rw [parseDigits_decimal, hlimit]
      rfl
    unfold millionths
    dsimp only
    rw [hpoint]
    dsimp only
    have hcast : -(z.natAbs : Int) = z := by omega
    rw [hread, hcast]
    rfl
  · rename_i hpos
    have hcast : (z.natAbs : Int) = z := by omega
    rw [parse_decimal h, hcast]

theorem microseconds_reads : Reads millionths microseconds where
  counter n hn := by
    refine ⟨_, parse_decimal hn, rfl, ?_, ?_⟩
    · show decide _ = true ↔ _
      rw [decide_eq_true_eq]
      omega
    · show ((n : Int) * 1000000 / 1000000).toNat = n
      omega
  signed z hz := ⟨_, parse_signed hz, rfl, by show z * 1000000 / 1000000 = z; omega⟩
  sum n := by
    have hshown : ∀ b ∈ fixed 6 (n.toNat / 1000 % 1000000), isWord b = true := by
      intro b hb
      refine isWord_of_alphanumeric ?_
      unfold isAsciiAlphanumeric
      rw [List.all_eq_true.mp (fixed_digits 6 _) b hb]
      rfl
    have hsmall : n.toNat / 1000 % 1000000 < 10 ^ (5 + 1) := Nat.mod_lt _ (by omega)
    have hpoint : 46 ∉ decimal (n.toNat / 1000000000) := fun hmem =>
      absurd (decimal_digits _ 46 hmem) (by decide)
    refine ⟨⟨by simp [microseconds], ?_⟩,
      ((n.toNat / 1000000000 * 1000000 + n.toNat / 1000 % 1000000 : Nat) : Int), ?_, rfl, ?_⟩
    · show (decimal _ ++ 46 :: fixed 6 _).all isWord = true
      rw [List.all_append, (decimal_word _).2, List.all_cons, List.all_eq_true.mpr hshown]
      rfl
    · show millionths.parse (decimal _ ++ 46 :: fixed 6 _) = _
      unfold millionths
      dsimp only
      rw [splitOnce_append hpoint]
      dsimp only
      rw [parseDigits_decimal, parseDigits_fixed hsmall]
      rfl
    · show decide (((n.toNat / 1000000000 * 1000000 + n.toNat / 1000 % 1000000 : Nat) : Int) < 0)
        = false
      exact decide_eq_false (by omega)

/-- Two answers, one of them an error, 1.5 seconds upstream, and one connection too many closed. -/
def counted : Metrics :=
  { recordResponse (recordResponse {} 200) 500 with
    upstreamLatency := { sumNanos := 1500000000, count := 1 }
    activeConnections := -1 }

theorem parse_renderPrometheus_counted :
    (∀ i, (counted.requests i).toNat ≤ 2 ^ 53) ∧ ∃ sum,
      millionths.parse (microseconds.text 1500000000) = some sum ∧
        Prom.parse millionths (renderPrometheus microseconds counted 7 true) =
          { requestsTotal := responses counted, errors5xxTotal := (counted.requests 4).toNat
            activeConnections := some counted.activeConnections.toInt
            generation := some (7 : Counter).toNat, latencySumSeconds := sum
            latencyCount := counted.upstreamLatency.count.toNat
            pinned := if true then some 1 else none } :=
  ⟨by decide, parse_renderPrometheus microseconds_reads counted 7 true (by decide) (by decide)
    (by decide) (by decide)⟩

end Exactly

end Ramjet.Top.Scraping
