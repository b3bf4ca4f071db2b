import DocGraph.Proofs.Archives
import Mathlib.Data.List.Induction

namespace DocGraph

/-!
# Files opened by many calls

Files may change while they are being opened one after the other, so each call finds them in a state
of its own, whatever that has to do with those that others have found.  A file is delivered by the
first call that can open it, and by no other:

* `FileCall`, `FileAccess.answerAfter`, `FileAccess.visits` — a call, and what it answers and what
  counts as opened after those before it;
* `FileAccess.found`, `FileAccess.opening`, `FileAccess.answer_eq` — what one call does;
* `FileAccess.Delivers`, `FileAccess.HasDelivered` — a call opens a file, and some call has done so;
* `FileAccess.contains_visits_iff` — **what counts as opened** has been delivered, after all calls;
* `FileAccess.OpensOnce`, `FileAccess.opensOnce` — the main statement.
-/

/-- A call that opens the file at a path once. -/
structure FileCall (σ : Type) where
  /-- The files as the call finds them, which others may have changed since the last call. -/
  state : σ
  path : String

namespace FileAccess

variable {σ : Type} (files : FileAccess (StateM σ))

/-- What a call answers, and what counts as opened then. -/
def answer (v : Visits) (c : FileCall σ) : Except IoError Opened × Visits :=
  ((files.openOnce c.path v).run c.state).1

/-- What counts as opened after some calls. -/
def visits (calls : List (FileCall σ)) : Visits :=
  calls.foldl (fun v c => (files.answer v c).2) {}

/-- What a call answers after others. -/
def answerAfter (earlier : List (FileCall σ)) (c : FileCall σ) : Except IoError Opened :=
  (files.answer (files.visits earlier) c).1

/-- The canonical path that a call finds. -/
def found (c : FileCall σ) : Except IoError String := ((files.canonical c.path).run c.state).1

/-- What comes of opening a file once its canonical path has been found. -/
def opening (c : FileCall σ) (place : String) : Except IoError FileBody :=
  ((files.openFile place).run ((files.canonical c.path).run c.state).2).1

/-- A call opens the file that has a canonical path. -/
def Delivers (earlier : List (FileCall σ)) (c : FileCall σ) (place : String) : Prop :=
  ∃ place' body, files.found c = .ok place'
    ∧ FilePath.components place' = FilePath.components place
    ∧ files.answerAfter earlier c = .ok (.first body)

/-- One of some calls has opened the file that has a canonical path. -/
def HasDelivered (calls : List (FileCall σ)) (place : String) : Prop :=
  ∃ earlier c later, calls = earlier ++ c :: later ∧ files.Delivers earlier c place

/-- Files are opened once, by whatever calls and however they change. -/
structure OpensOnce : Prop where
  /-- A call opens a file if none has done so before and it can be opened now. -/
  first_iff : ∀ earlier c body, files.answerAfter earlier c = .ok (.first body)
    ↔ ∃ place, files.found c = .ok place ∧ ¬ files.HasDelivered earlier place
      ∧ files.opening c place = .ok body
  /-- A file counts as visited if one has opened it before. -/
  visited_iff : ∀ earlier c, files.answerAfter earlier c = .ok .visited
    ↔ ∃ place, files.found c = .ok place ∧ files.HasDelivered earlier place
  /-- A call fails only if there is no canonical path, or if the file there cannot be opened. -/
  error_iff : ∀ earlier c e, files.answerAfter earlier c = .error e
    ↔ files.found c = .error e ∨ ∃ place, files.found c = .ok place
      ∧ ¬ files.HasDelivered earlier place ∧ files.opening c place = .error e
  contains_iff : ∀ calls place, (files.visits calls).contains place = true
    ↔ files.HasDelivered calls place
  /-- Only opening a file is recorded. -/
  visits_eq : ∀ earlier c, (∀ body, files.answerAfter earlier c ≠ .ok (.first body)) →
    files.visits (earlier ++ [c]) = files.visits earlier
  /-- No file is opened by two calls. -/
  not_delivers : ∀ earlier c between d place, files.Delivers earlier c place →
    ¬ files.Delivers (earlier ++ c :: between) d place
  /-- A failure is of no consequence for later calls. -/
  answerAfter_eq : ∀ earlier c later d e, files.answerAfter earlier c = .error e →
    files.answerAfter (earlier ++ c :: later) d = files.answerAfter (earlier ++ later) d

/-! ### One call -/

/-- What may come of a call, be it an answer or what counts as opened then. -/
inductive Outcome (v : Visits) (c : FileCall σ) : Except IoError Opened × Visits → Prop
  | lost (e : IoError) : files.found c = .error e → Outcome v c (.error e, v)
  | visited (place : String) : files.found c = .ok place → v.contains place = true →
    Outcome v c (.ok .visited, v)
  | failed (place : String) (e : IoError) : files.found c = .ok place → v.contains place = false →
    files.opening c place = .error e → Outcome v c (.error e, v)
  | first (place : String) (body : FileBody) : files.found c = .ok place →
    v.contains place = false → files.opening c place = .ok body →
    Outcome v c (.ok (.first body), v.insert place)

/-- **What a call does**: it finds the canonical path, asks whether it has been visited, and else
opens the file and takes note of it. -/
theorem answer_eq (v : Visits) (c : FileCall σ) :
    files.answer v c = match files.found c with
      | .error e => (.error e, v)
      | .ok place =>
        if v.contains place then (.ok .visited, v)
        else match files.opening c place with
          | .error e => (.error e, v)
          | .ok body => (.ok (.first body), v.insert place) := by
  -- neither depends on the files but by what comes of looking for the path, and then of opening it
  simp only [answer, openOnce, found, opening, StateT.run_bind]
  generalize (files.canonical c.path).run c.state = r
  obtain ⟨found, s⟩ := r
  cases found with
  | error e => rfl
  | ok place =>
    show ((ite _ _ _ : StateM σ _).run s).1 = ite _ _ _
    split
    · rfl
    · rw [StateT.run_bind]
      generalize (files.openFile place).run s = r
      obtain ⟨opening, s⟩ := r
      cases opening <;> rfl

/-- **What one call does.** -/
theorem outcome_answer (v : Visits) (c : FileCall σ) : files.Outcome v c (files.answer v c) := by
  rw [answer_eq]
  cases hfound : files.found c with
  | error e => exact .lost e hfound
  | ok place =>
    cases hplace : v.contains place with
    | true => simpa [hplace] using Outcome.visited place hfound hplace
    | false =>
      cases hopening : files.opening c place with
      | error e => simpa [hplace, hopening] using Outcome.failed place e hfound hplace hopening
      | ok body => simpa [hplace, hopening] using Outcome.first place body hfound hplace hopening

variable {files} {earlier later calls : List (FileCall σ)} {c : FileCall σ} {place : String}
variable {v : Visits}

/-- A file is delivered if it is found, new, and can be opened. -/
theorem answer_eq_first_iff {body : FileBody} :
    (files.answer v c).1 = .ok (.first body)
      ↔ ∃ place, files.found c = .ok place ∧ ¬ v.contains place = true
        ∧ files.opening c place = .ok body := by
  have houtcome := files.outcome_answer v c
  generalize files.answer v c = r at houtcome ⊢
  cases houtcome <;> simp [*]

/-- It is left out if it is found among those visited. -/
theorem answer_eq_visited_iff :
    (files.answer v c).1 = .ok .visited
      ↔ ∃ place, files.found c = .ok place ∧ v.contains place = true := by
  have houtcome := files.outcome_answer v c
  generalize files.answer v c = r at houtcome ⊢
  cases houtcome <;> simp [*]

/-- The call fails if the file is not found, or is new but cannot be opened. -/
theorem answer_eq_error_iff {e : IoError} :
    (files.answer v c).1 = .error e
      ↔ files.found c = .error e ∨ ∃ place, files.found c = .ok place
        ∧ ¬ v.contains place = true ∧ files.opening c place = .error e := by
  have houtcome := files.outcome_answer v c
  generalize files.answer v c = r at houtcome ⊢
  cases houtcome <;> simp [*]

/-- Only what is opened is recorded. -/
theorem contains_answer_iff :
    (files.answer v c).2.contains place = true ↔ v.contains place = true
      ∨ ∃ place' body, files.found c = .ok place'
        ∧ FilePath.components place' = FilePath.components place
        ∧ (files.answer v c).1 = .ok (.first body) := by
  have houtcome := files.outcome_answer v c
  generalize files.answer v c = r at houtcome ⊢
  cases houtcome <;> simp [*, Archive.contains_insert, or_comm]

/-- **Only a delivery is taken note of.** -/
theorem answer_snd (hfirst : ∀ body, (files.answer v c).1 ≠ .ok (.first body)) :
    (files.answer v c).2 = v := by
  have houtcome := files.outcome_answer v c
  generalize files.answer v c = r at houtcome hfirst ⊢
  cases houtcome with
  | first place body => exact absurd rfl (hfirst body)
  | _ => rfl

/-! ### Many calls -/

/-- Paths with the same components are the same. -/
theorem hasDelivered_congr {place' : String}
    (heq : FilePath.components place = FilePath.components place') :
    files.HasDelivered calls place ↔ files.HasDelivered calls place' := by
  simp only [HasDelivered, Delivers, heq]

theorem visits_append_singleton (files : FileAccess (StateM σ)) (earlier : List (FileCall σ))
    (c : FileCall σ) :
    files.visits (earlier ++ [c]) = (files.answer (files.visits earlier) c).2 := by
  rw [visits, List.foldl_append]
  rfl

/-- A file has been delivered before, or by the last call. -/
theorem hasDelivered_append_singleton :
    files.HasDelivered (earlier ++ [c]) place
      ↔ files.HasDelivered earlier place ∨ files.Delivers earlier c place := by
  constructor
  · rintro ⟨before, d, after, hcalls, hd⟩
    -- the call that delivered is the last one, or one of those before
    rcases List.eq_nil_or_concat' after with rfl | ⟨after, last, rfl⟩
    · obtain ⟨rfl, hlast⟩ := List.append_inj' hcalls rfl
      obtain rfl := List.singleton_inj.mp hlast
      exact Or.inr hd
    · rw [← List.cons_append, ← List.append_assoc] at hcalls
      obtain ⟨rfl, -⟩ := List.append_inj' hcalls rfl
      exact Or.inl ⟨before, d, after, rfl, hd⟩
  · rintro (⟨before, d, after, rfl, hd⟩ | hc)
    · exact ⟨before, d, after ++ [c], by simp, hd⟩
    · exact ⟨earlier, c, [], rfl, hc⟩

theorem not_hasDelivered_nil : ¬ files.HasDelivered [] place := by
  rintro ⟨before, d, after, hcalls, -⟩
  simp at hcalls

/-- **What counts as opened has been delivered**, whatever calls have been made. -/
theorem contains_visits_iff :
    (files.visits calls).contains place = true ↔ files.HasDelivered calls place := by
  -- from the last call, which is the one that knows of all others
  induction calls using List.reverseRecOn with
  | nil =>
    refine iff_of_false ?_ not_hasDelivered_nil
    simp [visits, Visits.contains]
  | append_singleton earlier c ih =>
    rw [visits_append_singleton, contains_answer_iff, hasDelivered_append_singleton, ih]
    rfl

/-- **Files are opened once.** -/
theorem opensOnce (files : FileAccess (StateM σ)) : files.OpensOnce := by
  constructor
  case first_iff =>
    intro earlier c body
    rw [answerAfter, answer_eq_first_iff]
    simp only [contains_visits_iff]
  case visited_iff =>
    intro earlier c
    rw [answerAfter, answer_eq_visited_iff]
    simp only [contains_visits_iff]
  case error_iff =>
    intro earlier c e
    rw [answerAfter, answer_eq_error_iff]
    simp only [contains_visits_iff]
  case contains_iff => exact fun _ _ => contains_visits_iff
  case visits_eq =>
    intro earlier c hfirst
    rw [visits_append_singleton, answer_snd hfirst]
  -- A file delivered earlier is among those visited, where no call is the first one.
  case not_delivers =>
    rintro earlier c between d place hc ⟨place', body, hfound, heq, hfirst⟩
    obtain ⟨place'', hfound', hnot, -⟩ := answer_eq_first_iff.mp hfirst
    obtain rfl := Except.ok.inj (hfound.symm.trans hfound')
    refine hnot (contains_visits_iff.mpr ?_)
    rw [hasDelivered_congr heq]
    exact ⟨earlier, c, between, rfl, hc⟩
  -- A call that fails leaves the visits as they were, so later calls do not notice it.
  case answerAfter_eq =>
    intro earlier c later d e hfailed
    have hsame : (files.answer (files.visits earlier) c).2 = files.visits earlier := by
      refine answer_snd fun body hfirst => ?_
      rw [answerAfter, hfirst] at hfailed
      cases hfailed
    have hvisits : files.visits (earlier ++ c :: later) = files.visits (earlier ++ later) := by
      rw [visits, List.foldl_append, List.foldl_cons, ← visits, hsame, visits, ← List.foldl_append]
      rfl
    rw [answerAfter, hvisits]
    rfl

end FileAccess

end DocGraph
