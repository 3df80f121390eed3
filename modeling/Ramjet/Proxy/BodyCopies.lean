/- digest: What a body yields, and when reading it for a copy leaves the request it was. -/

import Ramjet.Proxy.Body

set_option autoImplicit false
set_option relaxedAutoImplicit false

namespace Ramjet.Proxy.BodyCopies

open Ramjet.Base.Octets
open Ramjet.Proxy.Body

section Contents

/-- What a body has still to yield: its data, then trailers, then a failure. -/
@[ext] structure Contents where
  chunks : List Bytes := []
  trailers : Option Trailers := none
  failure : Option BodyError := none
  deriving DecidableEq, Repr

def Contents.data (c : Contents) : Bytes := c.chunks.flatten

/-- What such contents give when they are asked once. -/
def Contents.next (c : Contents) : Polled × Contents :=
  match c.chunks with
  | chunk :: chunks => (some (.ok (.data chunk)), { c with chunks := chunks })
  | [] =>
      match c.trailers with
      | some fields => (some (.ok (.trailers fields)), { c with trailers := none })
      | none => (c.failure.map .error, { c with failure := none })

def incomingContents (body : Incoming) : Contents :=
  ⟨body.data, body.trailers, body.failure.map .http⟩

/-- What a QUIC stream comes to, up to its first failure. -/
def streamContents : RecvStream → Contents
  | [] => {}
  | .ok chunk :: stream =>
      { streamContents stream with chunks := chunk :: (streamContents stream).chunks }
  | .error error :: _ => { failure := some (.http3 error) }

def requestContents (body : RequestBody) : Contents :=
  streamContents (body.queued.toList ++ if body.ended then [] else body.stream)

/-- Contents behind a chunk that is held in front of them. -/
def Contents.behind (c : Contents) (held : Option Bytes) : Contents :=
  { c with chunks := held.toList ++ c.chunks }

def contents (body : ProxyBody) : Contents :=
  match body.inner with
  | .empty => {}
  | .once data => { chunks := data.toList }
  | .stream body => incomingContents body
  | .prefixed data body => (incomingContents body).behind data
  | .http3 data body => (requestContents body).behind data

theorem poll_incoming (body : Incoming) :
    (body.pollFrame.1, incomingContents body.pollFrame.2) = (incomingContents body).next := by
  obtain ⟨data, trailers, failure, hint⟩ := body
  cases data with
  | cons chunk data => rfl
  | nil => cases trailers <;> cases failure <;> rfl

theorem poll_request (body : RequestBody) :
    (body.pollFrame.1, requestContents body.pollFrame.2) = (requestContents body).next := by
  obtain ⟨stream, queued, remaining, ended⟩ := body
  cases queued with
  | some chunk => cases chunk <;> rfl
  | none =>
      cases ended with
      | true => rfl
      | false =>
          cases stream with
          | nil => rfl
          | cons chunk stream => cases chunk <;> rfl

/-- A poll gives the next of what a body has still to yield. -/
theorem poll_contents (body : ProxyBody) :
    (body.pollFrame.1, contents body.pollFrame.2) = (contents body).next := by
  obtain ⟨inner⟩ := body
  cases inner with
  | empty => rfl
  | once data => cases data <;> rfl
  | stream body => exact poll_incoming body
  | prefixed data body =>
      cases data with
      | some pre => rfl
      | none => exact poll_incoming body
  | http3 data body =>
      cases data with
      | some pre => rfl
      | none => exact poll_request body

/-- A body after so many polls. -/
def after (body : ProxyBody) : Nat → ProxyBody
  | 0 => body
  | k + 1 => after body.pollFrame.2 k

theorem after_succ (body : ProxyBody) (k : Nat) :
    after body (k + 1) = (after body k).pollFrame.2 := by
  induction k generalizing body with
  | zero => rfl
  | succ k ih => exact ih body.pollFrame.2

theorem after_add (body : ProxyBody) (j k : Nat) : after body (j + k) = after (after body j) k := by
  induction j generalizing body with
  | zero => rw [Nat.zero_add]; rfl
  | succ j ih =>
      rw [Nat.succ_add]
      exact ih body.pollFrame.2

end Contents

section Hints

/-- A size hint does not contradict what there is to yield; what fails may yield less than it
promised. -/
def HintHolds (body : ProxyBody) : Prop :=
  ((contents body).failure = none → body.sizeHint.lower.val ≤ (contents body).data.length) ∧
    ∀ upper, body.sizeHint.upper = some upper → (contents body).data.length ≤ upper.val

/-- The data of the frames a body gives first. -/
def firstData (body : ProxyBody) (k : Nat) : Bytes := ((contents body).chunks.take k).flatten

end Hints

section Reading

variable {body : ProxyBody} (read : Bytes) (cap : U64)

theorem poll_data {chunk : Bytes} {chunks : List Bytes}
    (h : (contents body).chunks = chunk :: chunks) :
    body.pollFrame.1 = some (.ok (.data chunk)) ∧
      contents body.pollFrame.2 = { contents body with chunks := chunks } := by
  have hpoll := poll_contents body
  rw [Contents.next, h] at hpoll
  exact ⟨congrArg Prod.fst hpoll, congrArg Prod.snd hpoll⟩

theorem poll_trailers {fields : Trailers} (h : (contents body).chunks = [])
    (htrailers : (contents body).trailers = some fields) :
    body.pollFrame.1 = some (.ok (.trailers fields)) ∧
      contents body.pollFrame.2 = { failure := (contents body).failure } := by
  have hpoll := poll_contents body
  rw [Contents.next, h, htrailers] at hpoll
  exact ⟨congrArg Prod.fst hpoll, congrArg Prod.snd hpoll⟩

theorem poll_end (h : (contents body).chunks = []) (htrailers : (contents body).trailers = none) :
    body.pollFrame.1 = (contents body).failure.map .error ∧
      contents body.pollFrame.2 = {} := by
  have hpoll := poll_contents body
  rw [Contents.next, h, htrailers] at hpoll
  exact ⟨congrArg Prod.fst hpoll, congrArg Prod.snd hpoll⟩

theorem bufferFrom_data {chunk : Bytes} (h : body.pollFrame.1 = some (.ok (.data chunk))) :
    bufferFrom read body cap =
      if cap.val < (read ++ chunk).length then .tooLarge (read ++ chunk) body.pollFrame.2
      else bufferFrom (read ++ chunk) body.pollFrame.2 cap := by
  rw [bufferFrom]
  split <;> simp_all

theorem bufferFrom_complete (h : body.pollFrame.1 = none) :
    bufferFrom read body cap = .complete read := by
  rw [bufferFrom]
  split <;> simp_all

theorem bufferFrom_trailers {fields : Trailers}
    (h : body.pollFrame.1 = some (.ok (.trailers fields))) :
    bufferFrom read body cap = .tooLarge read body.pollFrame.2 := by
  rw [bufferFrom]
  split <;> simp_all

theorem bufferFrom_error {error : BodyError} (h : body.pollFrame.1 = some (.error error)) :
    bufferFrom read body cap = .tooLarge read body.pollFrame.2 := by
  rw [bufferFrom]
  split <;> simp_all

theorem firstData_zero (body : ProxyBody) : firstData body 0 = [] := rfl

theorem firstData_cons {chunk : Bytes} {chunks : List Bytes}
    (h : (contents body).chunks = chunk :: chunks) (k : Nat) :
    firstData body (k + 1) = chunk ++ firstData body.pollFrame.2 k := by
  rw [firstData, firstData, h, (poll_data h).2, List.take_succ_cons, List.flatten_cons]

/-- The three ways reading ends: at the end of the body, past the cap, or on a frame that is not
data. -/
theorem bufferFrom_cases (body : ProxyBody) (read : Bytes) (cap : U64)
    (hread : read.length ≤ cap.val) :
    ((contents body).trailers = none ∧ (contents body).failure = none ∧
      (read ++ (contents body).data).length ≤ cap.val ∧
        bufferFrom read body cap = .complete (read ++ (contents body).data)) ∨
    (∃ m, (read ++ firstData body m).length ≤ cap.val ∧
      cap.val < (read ++ firstData body (m + 1)).length ∧
        bufferFrom read body cap =
          .tooLarge (read ++ firstData body (m + 1)) (after body (m + 1))) ∨
    (((contents body).trailers ≠ none ∨ (contents body).failure ≠ none) ∧
      (read ++ (contents body).data).length ≤ cap.val ∧
        bufferFrom read body cap = .tooLarge (read ++ (contents body).data)
          (after body ((contents body).chunks.length + 1))) := by
  generalize hchunks : (contents body).chunks = chunks
  induction chunks generalizing body read with
  | nil =>
      have hdata : (contents body).data = [] := by rw [Contents.data, hchunks, List.flatten_nil]
      rw [hdata, List.append_nil, List.length_nil, Nat.zero_add]
      cases htrailers : (contents body).trailers with
      | some fields =>
          have hpoll := poll_trailers hchunks htrailers
          exact .inr (.inr ⟨.inl (by simp), hread, bufferFrom_trailers read cap hpoll.1⟩)
      | none =>
          have hpoll := poll_end hchunks htrailers
          cases hfailure : (contents body).failure with
          | some error =>
              rw [hfailure] at hpoll
              exact .inr (.inr ⟨.inr (by simp), hread, bufferFrom_error read cap hpoll.1⟩)
          | none =>
              rw [hfailure] at hpoll
              exact .inl ⟨rfl, rfl, hread, bufferFrom_complete read cap hpoll.1⟩
  | cons chunk chunks ih =>
      obtain ⟨hpoll, hcontents⟩ := poll_data hchunks
      have hdata : (contents body).data = chunk ++ (contents body.pollFrame.2).data := by
        rw [Contents.data, hchunks, List.flatten_cons, hcontents, Contents.data]
      rw [bufferFrom_data read cap hpoll]
      by_cases hcross : cap.val < (read ++ chunk).length
      · refine .inr (.inl ⟨0, ?_, ?_, ?_⟩)
        · simpa [firstData_zero] using hread
        · simpa [firstData_cons hchunks, firstData_zero] using hcross
        · rw [if_pos hcross, firstData_cons hchunks, firstData_zero, List.append_nil]
          rfl
      · have hrest := ih body.pollFrame.2 (read ++ chunk) (by omega) (by rw [hcontents])
        rw [if_neg hcross]
        rw [List.append_assoc, ← hdata, hcontents] at hrest
        rcases hrest with hcomplete | ⟨m, hbefore, hafter, htoo⟩ | hstopped
        · exact .inl hcomplete
        · refine .inr (.inl ⟨m + 1, ?_, ?_, ?_⟩)
          · rw [firstData_cons hchunks, ← List.append_assoc]
            exact hbefore
          · rw [firstData_cons hchunks, ← List.append_assoc]
            exact hafter
          · rw [firstData_cons hchunks, ← List.append_assoc]
            exact htoo
        · exact .inr (.inr hstopped)

end Reading

section Passing

/-- No chunk is held in front of the stream. -/
def Unheld (body : ProxyBody) : Prop :=
  match body.inner with
  | .empty => True
  | .once data => data = none
  | .stream _ => True
  | .prefixed data _ => data = none
  | .http3 data _ => data = none

theorem unheld_pollFrame (body : ProxyBody) : Unheld body.pollFrame.2 := by
  obtain ⟨inner⟩ := body
  cases inner with
  | empty => trivial
  | once data => rfl
  | stream body => trivial
  | prefixed data body => cases data <;> rfl
  | http3 data body => cases data <;> rfl

theorem behind_zero (hint : SizeHint) : hint.behind 0 = hint := by
  obtain ⟨lower, upper⟩ := hint
  have hadd : ∀ n : U64, n.saturatingAdd 0 = n := by
    intro n
    apply Fin.ext
    have hn := n.isLt
    simp only [U64.saturatingAdd, U64_MAX, Fin.val_zero, Nat.add_zero]
    omega
  cases upper <;> simp [SizeHint.behind, hadd]

/-- Two bodies that are alike in what they yield and in what they say of it, now and later. -/
def Same (body other : ProxyBody) : Prop :=
  ∀ k, contents (after body k) = contents (after other k) ∧
    (after body k).sizeHint = (after other k).sizeHint

theorem same_refl (body : ProxyBody) : Same body body := fun _ => ⟨rfl, rfl⟩

/-- What is wrapped for a prefix goes on as the stream itself once the prefix is taken. -/
theorem same_prefixed (body : Incoming) : Same ⟨.prefixed none body⟩ (.stream body) := by
  intro k
  induction k generalizing body with
  | zero => exact ⟨rfl, behind_zero body.sizeHint⟩
  | succ k ih => exact ih body.pollFrame.2

theorem same_once : Same ⟨.once none⟩ .empty := by
  intro k
  induction k with
  | zero => exact ⟨rfl, rfl⟩
  | succ k ih => exact ih

theorem prefixed_spec {pre : Bytes} (hpre : pre ≠ []) {rest : ProxyBody} (hrest : Unheld rest) :
    contents (.prefixed pre rest) = { contents rest with chunks := pre :: (contents rest).chunks } ∧
      (ProxyBody.prefixed pre rest).sizeHint = rest.sizeHint.behind (lengthU64 pre) ∧
        Same (ProxyBody.prefixed pre rest).pollFrame.2 rest := by
  have hempty : pre.isEmpty = false := List.isEmpty_eq_false_iff.mpr hpre
  have hadd : ∀ n : U64, U64.saturatingAdd 0 n = n := by
    intro n
    apply Fin.ext
    have hn := n.isLt
    simp only [U64.saturatingAdd, U64_MAX, Fin.val_zero, Nat.zero_add]
    omega
  have honce : (ProxyBody.once pre).sizeHint = (SizeHint.withExact 0).behind (lengthU64 pre) := by
    simp [ProxyBody.once, hempty, ProxyBody.sizeHint, heldLength, SizeHint.withExact,
      SizeHint.behind, hadd]
  have hcontents : contents (.once pre) = { chunks := [pre] } := by
    simp [ProxyBody.once, hempty, contents]
  have hrestless : (ProxyBody.once pre).pollFrame.2 = ⟨.once none⟩ := by
    simp [ProxyBody.once, hempty, ProxyBody.pollFrame]
  obtain ⟨inner⟩ := rest
  cases inner with
  | empty =>
      have heq : ProxyBody.prefixed pre ⟨.empty⟩ = .once pre := by simp [ProxyBody.prefixed, hempty]
      rw [heq, hrestless]
      exact ⟨hcontents, honce, same_once⟩
  | once data =>
      obtain rfl : data = none := hrest
      have heq : ProxyBody.prefixed pre ⟨.once none⟩ = .once pre := by
        simp [ProxyBody.prefixed, hempty]
      rw [heq, hrestless]
      exact ⟨hcontents, honce, same_refl _⟩
  | stream body =>
      have heq : ProxyBody.prefixed pre ⟨.stream body⟩ = ⟨.prefixed (some pre) body⟩ := by
        simp [ProxyBody.prefixed, hempty]
      rw [heq]
      exact ⟨rfl, rfl, same_prefixed body⟩
  | prefixed data body =>
      obtain rfl : data = none := hrest
      have heq : ProxyBody.prefixed pre ⟨.prefixed none body⟩ = ⟨.prefixed (some pre) body⟩ := by
        simp [ProxyBody.prefixed, hempty]
      have hhint : (ProxyBody.mk (.prefixed none body)).sizeHint = body.sizeHint :=
        behind_zero body.sizeHint
      rw [heq, hhint]
      exact ⟨rfl, rfl, same_refl _⟩
  | http3 data body =>
      obtain rfl : data = none := hrest
      have heq : ProxyBody.prefixed pre ⟨.http3 none body⟩ = ⟨.http3 (some pre) body⟩ := by
        simp [ProxyBody.prefixed, hempty, join]
      have hhint : (ProxyBody.mk (.http3 none body)).sizeHint = body.sizeHint :=
        behind_zero body.sizeHint
      rw [heq, hhint]
      exact ⟨rfl, rfl, same_refl _⟩

end Passing

section Carrying

/-- The body sent is the request's own: its data in order, its trailers, its failure, and a size
hint that never lies about what is still to come. -/
structure Carried (body sent : ProxyBody) : Prop where
  data : (contents sent).data = (contents body).data
  trailers : (contents sent).trailers = (contents body).trailers
  failure : (contents sent).failure = (contents body).failure
  hint : ∀ k, HintHolds (after sent k)

/-- The data passes the cap in the frame of this number. -/
def Crosses (body : ProxyBody) (cap : U64) (m : Nat) : Prop :=
  (firstData body m).length ≤ cap.val ∧ cap.val < (firstData body (m + 1)).length

/-- No frame that is not data is met before the cap is passed. -/
def Whole (body : ProxyBody) (cap : U64) : Prop :=
  body.isKnownEmpty = true ∨ cap.val < (contents body).data.length ∨
    ((contents body).trailers = none ∧ (contents body).failure = none)

/-- Where a body is passed on as it is, or from past the cap, its own size hints hold from there,
and it is no longer than they can count. -/
def Hinted (body : ProxyBody) (cap : U64) : Prop :=
  (body.isKnownEmpty = true → ∀ k, HintHolds (after body k)) ∧
    (body.isKnownEmpty = false → ∀ m, Crosses body cap m →
      (∀ k, HintHolds (after body (m + 1 + k))) ∧
        ((after body (m + 1)).sizeHint.upper ≠ none → (contents body).data.length ≤ U64_MAX))

variable {body : ProxyBody} {cap : U64}

theorem firstData_initial (body : ProxyBody) (k : Nat) : firstData body k <+: (contents body).data :=
  ⟨((contents body).chunks.drop k).flatten, by
    rw [firstData, ← List.flatten_append, List.take_append_drop, Contents.data]⟩

theorem contents_after {k : Nat} (hk : k ≤ (contents body).chunks.length) :
    contents (after body k) = { contents body with chunks := (contents body).chunks.drop k } := by
  induction k generalizing body with
  | zero => rfl
  | succ k ih =>
      cases hchunks : (contents body).chunks with
      | nil => simp [hchunks] at hk
      | cons chunk chunks =>
          have hpoll := (poll_data hchunks).2
          rw [hchunks, List.length_cons] at hk
          rw [after, ih (by rw [hpoll]; exact Nat.le_of_succ_le_succ hk), hpoll]
          rfl

/-- The frame that passes the cap is one of the body's. -/
theorem Crosses.lt {m : Nat} (h : Crosses body cap m) : m < (contents body).chunks.length := by
  by_contra hge
  have hall : ∀ k, (contents body).chunks.length ≤ k → firstData body k = (contents body).data :=
    fun k hk => by rw [firstData, List.take_of_length_le hk, Contents.data]
  obtain ⟨hbefore, hafter⟩ := h
  rw [hall m (by omega)] at hbefore
  rw [hall (m + 1) (by omega)] at hafter
  omega

theorem firstData_mono (body : ProxyBody) {j k : Nat} (h : j ≤ k) :
    (firstData body j).length ≤ (firstData body k).length := by
  obtain ⟨d, rfl⟩ := Nat.exists_eq_add_of_le h
  rw [firstData, firstData, List.take_add, List.flatten_append, List.length_append]
  omega

theorem Crosses.unique {m n : Nat} (h : Crosses body cap m) (h' : Crosses body cap n) : m = n := by
  obtain ⟨hbefore, hafter⟩ := h
  obtain ⟨hbefore', hafter'⟩ := h'
  rcases Nat.lt_trichotomy m n with hlt | heq | hgt
  · have hmono := firstData_mono body (show m + 1 ≤ n by omega)
    omega
  · exact heq
  · have hmono := firstData_mono body (show n + 1 ≤ m by omega)
    omega

theorem not_crosses (h : (contents body).data.length ≤ cap.val) (m : Nat) :
    ¬Crosses body cap m := by
  rintro ⟨-, hafter⟩
  have hle := (firstData_initial body (m + 1)).length_le
  omega

theorem hintHolds_same {other : ProxyBody} (h : Same body other) (k : Nat) :
    HintHolds (after body k) ↔ HintHolds (after other k) := by
  rw [HintHolds, HintHolds, (h k).1, (h k).2]

theorem contents_once (bytes : Bytes) : (contents (.once bytes)).data = bytes ∧
    (contents (.once bytes)).trailers = none ∧ (contents (.once bytes)).failure = none := by
  by_cases hbytes : bytes.isEmpty = true
  · rw [ProxyBody.once, if_pos hbytes, List.isEmpty_iff.mp hbytes]
    exact ⟨rfl, rfl, rfl⟩
  · rw [ProxyBody.once, if_neg hbytes]
    exact ⟨List.append_nil bytes, rfl, rfl⟩

/-- A body of one chunk that fits in 64 bits says its size rightly. -/
theorem hint_once {bytes : Bytes} (h : bytes.length ≤ U64_MAX) (k : Nat) :
    HintHolds (after (.once bytes) k) := by
  have hempty : ∀ k, HintHolds (after .empty k) := by
    intro k
    induction k with
    | zero => exact ⟨fun _ => Nat.zero_le _, fun _ _ => Nat.zero_le _⟩
    | succ k ih => exact ih
  by_cases hbytes : bytes.isEmpty = true
  · rw [ProxyBody.once, if_pos hbytes]
    exact hempty k
  · rw [ProxyBody.once, if_neg hbytes]
    cases k with
    | zero =>
        have hlen : (lengthU64 bytes).val = bytes.length := by
          unfold U64_MAX at h
          exact Nat.mod_eq_of_lt (by omega)
        have hdata : (contents ⟨.once (some bytes)⟩).data = bytes := List.append_nil bytes
        refine ⟨fun _ => ?_, ?_⟩
        · exact (hlen.trans (congrArg List.length hdata).symm).le
        · rintro upper hupper
          obtain rfl : lengthU64 bytes = upper := Option.some.inj hupper
          exact ((congrArg List.length hdata).trans hlen.symm).le
    | succ k => exact (hintHolds_same same_once k).mpr (hempty k)

/-- With a chunk in front, a hint holds where it holds of the rest and the whole can be counted. -/
theorem hint_prefixed {pre : Bytes} (hpre : pre ≠ []) {rest : ProxyBody} (hrest : Unheld rest)
    (hholds : HintHolds rest) :
    HintHolds (.prefixed pre rest) ↔
      (rest.sizeHint.upper ≠ none → pre.length + (contents rest).data.length ≤ U64_MAX) := by
  obtain ⟨hcontents, hhint, -⟩ := prefixed_spec hpre hrest
  have hdata : (contents (.prefixed pre rest)).data.length =
      pre.length + (contents rest).data.length := by
    rw [hcontents, Contents.data, List.flatten_cons, List.length_append, Contents.data]
  have hcount : (lengthU64 pre).val ≤ pre.length := Nat.mod_le _ _
  obtain ⟨hlower, hupper⟩ := hholds
  constructor
  · rintro ⟨-, hbound⟩ hsome
    obtain ⟨upper, hrestUpper⟩ := Option.ne_none_iff_exists'.mp hsome
    have hupperAt : (ProxyBody.prefixed pre rest).sizeHint.upper =
        some (upper.saturatingAdd (lengthU64 pre)) := by
      rw [hhint, SizeHint.behind, hrestUpper]
      rfl
    have hle := hbound _ hupperAt
    rw [hdata] at hle
    exact hle.trans (Nat.min_le_right _ _)
  · intro hcounted
    refine ⟨?_, ?_⟩
    · intro hfailure
      rw [hcontents] at hfailure
      rw [hhint, hdata]
      have hle := hlower hfailure
      have hmin := Nat.min_le_left (rest.sizeHint.lower.val + (lengthU64 pre).val) U64_MAX
      change min (rest.sizeHint.lower.val + (lengthU64 pre).val) U64_MAX ≤ _
      omega
    · intro upper hbound
      rw [hhint, SizeHint.behind] at hbound
      obtain ⟨restUpper, hrestUpper, rfl⟩ := Option.map_eq_some_iff.mp hbound
      have hle := hupper restUpper hrestUpper
      have htotal := hcounted (by rw [hrestUpper]; simp)
      have hlen : (lengthU64 pre).val = pre.length := by
        unfold U64_MAX at htotal
        exact Nat.mod_eq_of_lt (by omega)
      rw [hdata]
      change _ ≤ min (restUpper.val + (lengthU64 pre).val) U64_MAX
      rw [hlen]
      exact le_min (by omega) htotal

theorem unheld_after (body : ProxyBody) (k : Nat) : Unheld (after body (k + 1)) := by
  rw [after_succ]
  exact unheld_pollFrame _

/-- A frame that is not data, once read, is not given again. -/
theorem not_carried_of_stopped
    (h : (contents body).trailers ≠ none ∨ (contents body).failure ≠ none) (read : Bytes) :
    ¬Carried body (.prefixed read (after body ((contents body).chunks.length + 1))) := by
  intro hcarried
  have htrailers := hcarried.trailers
  have hfailure := hcarried.failure
  have hrest : ∀ rest, Unheld rest →
      (contents (.prefixed read rest)).trailers = (contents rest).trailers ∧
        (contents (.prefixed read rest)).failure = (contents rest).failure := by
    intro rest hunheld
    by_cases hread : read = []
    · subst hread
      exact ⟨rfl, rfl⟩
    · rw [(prefixed_spec hread hunheld).1]
      exact ⟨rfl, rfl⟩
  rw [(hrest _ (unheld_after body _)).1, after_succ] at htrailers
  rw [(hrest _ (unheld_after body _)).2, after_succ] at hfailure
  have hat := contents_after (le_refl (contents body).chunks.length)
  have hlast : (contents (after body (contents body).chunks.length)).chunks = [] := by
    rw [hat, List.drop_length]
  cases hfields : (contents body).trailers with
  | some fields =>
      rw [(poll_trailers hlast (by rw [hat]; exact hfields)).2, hfields] at htrailers
      cases htrailers
  | none =>
      rw [(poll_end hlast (by rw [hat]; exact hfields)).2] at hfailure
      rcases h with hsome | hsome
      · exact hsome hfields
      · exact hsome hfailure.symm

/-- Crossing the cap, the request goes on whole, and its hints are those of what was left of it. -/
theorem carried_of_crosses {m : Nat} (h : Crosses body cap m) :
    Carried body (.prefixed (firstData body (m + 1)) (after body (m + 1))) ↔
      (∀ k, HintHolds (after body (m + 1 + k))) ∧
        ((after body (m + 1)).sizeHint.upper ≠ none → (contents body).data.length ≤ U64_MAX) := by
  have hpre : firstData body (m + 1) ≠ [] := by
    intro hnil
    have hafter := h.2
    rw [hnil] at hafter
    exact Nat.not_lt_zero _ hafter
  have hunheld := unheld_after body m
  obtain ⟨hcontents, -, hsame⟩ := prefixed_spec hpre hunheld
  have hrest := contents_after (show m + 1 ≤ (contents body).chunks.length from h.lt)
  have hdata : firstData body (m + 1) ++ (contents (after body (m + 1))).data =
      (contents body).data := by
    rw [hrest, Contents.data, firstData, ← List.flatten_append, List.take_append_drop]
    rfl
  have hlen := congrArg List.length hdata
  rw [List.length_append] at hlen
  have hlater : ∀ k,
      HintHolds (after (.prefixed (firstData body (m + 1)) (after body (m + 1))) (k + 1)) ↔
        HintHolds (after body (m + 1 + k)) := by
    intro k
    have hsplit := after_add body (m + 1) k
    rw [hsplit]
    exact hintHolds_same hsame k
  constructor
  · intro hcarried
    have hholds : ∀ k, HintHolds (after body (m + 1 + k)) :=
      fun k => (hlater k).mp (hcarried.hint (k + 1))
    refine ⟨hholds, ?_⟩
    rw [← hlen]
    exact (hint_prefixed hpre hunheld (hholds 0)).mp (hcarried.hint 0)
  · rintro ⟨hholds, hcounted⟩
    refine ⟨?_, ?_, ?_, ?_⟩
    · rw [hcontents, Contents.data, List.flatten_cons]
      exact hdata
    · rw [hcontents, hrest]
    · rw [hcontents, hrest]
    · intro k
      cases k with
      | zero =>
          rw [← hlen] at hcounted
          exact (hint_prefixed hpre hunheld (hholds 0)).mpr hcounted
      | succ k => exact (hlater k).mpr (hholds k)

/-- Buffering for a copy carries the request on exactly when it meets no frame but data before the
cap, and what is passed on of the body itself is rightly sized. -/
theorem carried_iff (body : ProxyBody) (cap : U64) :
    Carried body (mirrorBody body cap).1 ↔ Whole body cap ∧ Hinted body cap := by
  rw [mirrorBody, Whole, Hinted]
  cases hknown : body.isKnownEmpty with
  | true =>
      rw [if_pos rfl]
      refine ⟨fun h => ⟨.inl rfl, fun _ => h.hint, by simp⟩, fun h => ⟨rfl, rfl, rfl, h.2.1 rfl⟩⟩
  | false =>
      rw [if_neg (by simp)]
      have hempty : ([] : Bytes).length ≤ cap.val := Nat.zero_le _
      rcases bufferFrom_cases body [] cap hempty with
        ⟨htrailers, hfailure, hfits, hbuffer⟩ | ⟨m, hbefore, hafter, hbuffer⟩ |
          ⟨hstopped, hfits, hbuffer⟩
      · rw [List.nil_append] at hfits hbuffer
        rw [buffer, hbuffer]
        have hcap := cap.isLt
        constructor
        · intro _
          refine ⟨.inr (.inr ⟨htrailers, hfailure⟩), by simp, ?_⟩
          intro _ m hm
          exact absurd hm (not_crosses hfits m)
        · intro _
          have hcounted : (contents body).data.length ≤ U64_MAX := by
            unfold U64_MAX
            omega
          obtain ⟨hdata, hnone, hwhole⟩ := contents_once (contents body).data
          exact ⟨hdata, hnone.trans htrailers.symm, hwhole.trans hfailure.symm, hint_once hcounted⟩
      · rw [List.nil_append] at hbefore hafter hbuffer
        rw [buffer, hbuffer, carried_of_crosses ⟨hbefore, hafter⟩]
        have hpassed := hafter.trans_le (firstData_initial body (m + 1)).length_le
        constructor
        · intro hheld
          refine ⟨.inr (.inl hpassed), by simp, ?_⟩
          intro _ n hn
          rw [hn.unique ⟨hbefore, hafter⟩]
          exact hheld
        · rintro ⟨-, -, hheld⟩
          exact hheld rfl m ⟨hbefore, hafter⟩
      · rw [List.nil_append] at hfits hbuffer
        rw [buffer, hbuffer]
        constructor
        · intro hcarried
          exact absurd hcarried (not_carried_of_stopped hstopped _)
        · rintro ⟨hknown | hpassed | ⟨htrailers, hfailure⟩, -⟩
          · cases hknown
          · omega
          · rcases hstopped with hsome | hsome
            · exact absurd htrailers hsome
            · exact absurd hfailure hsome

/-- A body that sizes itself rightly throughout, and can be counted, is rightly sized once read. -/
theorem hinted_of_honest (h : ∀ k, HintHolds (after body k))
    (hcounted : (contents body).data.length ≤ U64_MAX) : Hinted body cap :=
  ⟨fun _ => h, fun _ m _ => ⟨fun k => h (m + 1 + k), fun _ => hcounted⟩⟩

/-- A request that came over QUIC without a declared length, and failed after five octets. -/
def failedUpload : ProxyBody :=
  requestBody [.ok (ascii "hello"), .error 0] none false

/-- The failure is read in order to stop, and the upload goes on as if it were complete. -/
theorem failure_lost : failedUpload.isKnownEmpty = false ∧
    (contents failedUpload).failure = some (.http3 0) ∧
      (contents (mirrorBody failedUpload 262144).1).failure = none ∧
        ¬Carried failedUpload (mirrorBody failedUpload 262144).1 := by
  have hsent : (mirrorBody failedUpload 262144).1 =
      .prefixed (ascii "hello") (after failedUpload 2) := by
    have hdata : failedUpload.pollFrame.1 = some (.ok (.data (ascii "hello"))) := rfl
    have hfailure : failedUpload.pollFrame.2.pollFrame.1 = some (.error (.http3 0)) := rfl
    rw [mirrorBody, if_neg (by decide), buffer, bufferFrom_data _ _ hdata, if_neg (by decide)]
    rw [bufferFrom_error _ _ hfailure]
    rfl
  have hlost : (contents (mirrorBody failedUpload 262144).1).failure = none := by
    rw [hsent]
    decide +kernel
  refine ⟨by decide, by decide +kernel, hlost, ?_⟩
  intro hcarried
  have hkept := hcarried.failure
  rw [hlost] at hkept
  exact absurd hkept (by decide +kernel)

end Carrying

end Ramjet.Proxy.BodyCopies
