import DocGraph.Project.Link
import DocGraph.Proofs.Building

namespace DocGraph

/-!
# Runs and the recipients of their reports

A run hands its reports to a recipient and is judged by the warnings that the recipient has counted:

* `Recipient.Counts`, `Recipient.count_recordAll` — a recipient that counts every report has counted
  as many of each level as it was handed;
* `Writer.attempts`, `Writer.AllOrNothing` — which texts a destination takes, and destinations that
  take a text as a whole or not at all;
* `Display.Shows`, `Display.shows_recordAll` — what a display counts, drops and shows;
* `Project.judged`, `Project.judged_eq_judged` — the outcome of a run, which is the same with all
  recipients that count;
* `Project.judged_display` — the main statement: a display that cannot always write has the outcome
  of a buffer, counts every report, and shows those that were written.
-/

/-! ### Counting -/

theorem Tally.count_empty (level : Level) : ({} : Tally).count level = 0 := by
  cases level <;> rfl

/-- A report is counted on its level and on no other. -/
theorem Tally.count_add (t : Tally) (level level' : Level) :
    (t.add level).count level' = t.count level' + if level = level' then 1 else 0 := by
  cases level <;> cases level' <;> rfl

namespace Recipient

/-- A recipient counts every report, whatever else becomes of it. -/
class Counts (ρ : Type) [Recipient ρ] : Prop where
  tally_record : ∀ (report : Report) (r : ρ), tally (record report r) = (tally r).add report.level

instance : Counts Buffer := ⟨fun _ _ => rfl⟩

instance {ω : Type} [Writer ω] : Counts (Display ω) := ⟨fun _ _ => rfl⟩

variable {ρ : Type} [Recipient ρ] [Counts ρ]

/-- What has been counted depends on the reports alone. -/
theorem tally_recordAll (reports : List Report) (r : ρ) :
    tally (recordAll reports r) = reports.foldl (fun t report => t.add report.level) (tally r) := by
  unfold recordAll
  induction reports generalizing r with
  | nil => rfl
  | cons report rest ih => rw [List.foldl_cons, List.foldl_cons, ih, Counts.tally_record]

/-- **Every report is counted** at its level. -/
theorem count_recordAll (reports : List Report) (r : ρ) (level : Level) :
    (tally (recordAll reports r)).count level
      = (tally r).count level + reports.countP (·.level = level) := by
  rw [tally_recordAll]
  generalize tally r = t
  induction reports generalizing t with
  | nil => rfl
  | cons report rest ih =>
    rw [List.foldl_cons, ih, Tally.count_add, List.countP_cons]
    simp only [decide_eq_true_eq]
    omega

end Recipient

/-- **A buffer keeps all reports**, in order. -/
theorem Buffer.reports_recordAll (reports : List Report) (b : Buffer) :
    (Recipient.recordAll reports b).reports = b.reports ++ reports := by
  unfold Recipient.recordAll
  induction reports generalizing b with
  | nil => exact (List.append_nil _).symm
  | cons report rest ih =>
    rw [List.foldl_cons, ih]
    exact List.append_assoc b.reports [report] rest

/-! ### Writing -/

namespace Writer

variable {ω : Type} [Writer ω]

/-- Texts that are to be written one after the other, and whether each is. -/
def attempts : List String → ω → List (String × Bool)
  | [], _ => []
  | s :: rest, out => (s, (write s out).1) :: attempts rest (write s out).2

/-- The texts that are written. -/
def written (texts : List String) (out : ω) : List String :=
  ((attempts texts out).filter (·.2)).map (·.1)

/-- The number of texts that are not written. -/
def failures (texts : List String) (out : ω) : Nat := (attempts texts out).countP (! ·.2)

/-- A text is written as a whole or not at all. -/
structure AllOrNothing (text : ω → String) : Prop where
  taken : ∀ (s : String) (out : ω), (write s out).1 = true → text (write s out).2 = text out ++ s
  refused : ∀ (s : String) (out : ω), (write s out).1 = false → text (write s out).2 = text out

end Writer

namespace Display

variable {ω : Type} [Writer ω] {text : ω → String}

/-- A display has counted all reports, has dropped those that could not be written, and shows the
others in order behind what was written before. -/
structure Shows (text : ω → String) (out : ω) (reports : List Report) (d : Display ω) : Prop where
  counted : ∀ level, d.tally.count level = reports.countP (·.level = level)
  dropped : d.dropped = Writer.failures (reports.map Report.text) out
  shown : text d.out = text out ++ String.join (Writer.written (reports.map Report.text) out)

/-- **A display drops a report** if it cannot be written. -/
theorem dropped_recordAll (reports : List Report) (d : Display ω) :
    (Recipient.recordAll reports d).dropped
      = d.dropped + Writer.failures (reports.map Report.text) d.out := by
  unfold Recipient.recordAll Writer.failures
  -- for any display, since each report may find the destination changed by those before
  induction reports generalizing d with
  | nil => rfl
  | cons report rest ih =>
    rw [List.foldl_cons, ih, List.map_cons, Writer.attempts, List.countP_cons]
    cases hwrite : (Writer.write report.text d.out).1 with
    | true => simp [Recipient.record, hwrite]
    | false =>
      simp [Recipient.record, hwrite]
      omega

/-- **The text written** is that of the other reports, in order. -/
theorem text_recordAll (hw : Writer.AllOrNothing text) (reports : List Report) (d : Display ω) :
    text (Recipient.recordAll reports d).out
      = text d.out ++ String.join (Writer.written (reports.map Report.text) d.out) := by
  unfold Recipient.recordAll Writer.written
  induction reports generalizing d with
  | nil => simp [Writer.attempts]
  | cons report rest ih =>
    have hout : (Recipient.record report d).out = (Writer.write report.text d.out).2 := rfl
    rw [List.foldl_cons, ih, List.map_cons, Writer.attempts, hout]
    -- a write adds the whole text or nothing
    cases hwrite : (Writer.write report.text d.out).1 with
    | true =>
      rw [hw.taken _ _ hwrite]
      simp [String.append_assoc]
    | false =>
      rw [hw.refused _ _ hwrite]
      simp

/-- **A display** that is handed reports shows them. -/
theorem shows_recordAll (hw : Writer.AllOrNothing text) (reports : List Report) (out : ω) :
    Shows text out reports (Recipient.recordAll reports { out }) where
  counted level := by
    have hcount := Recipient.count_recordAll reports ({ out } : Display ω) level
    have hnone : (Recipient.tally ({ out } : Display ω)).count level = 0 := Tally.count_empty level
    rwa [hnone, Nat.zero_add] at hcount
  dropped := (dropped_recordAll reports { out }).trans (Nat.zero_add _)
  shown := text_recordAll hw reports { out }

end Display

namespace Project

/-! ### Runs -/

section

variable {ρ ρ' : Type} [Recipient ρ] [Recipient ρ']

/-- What a run comes to: the linked graph and the verdict, or the failure to link. -/
def judged (settings : Settings) (roots : List Element) (recipient : ρ) :
    Except Failure (Graph × Except Failure Unit) := do
  let (graph, recipient) ← link settings roots recipient
  return (graph, verdict settings recipient)

/-- The verdict depends on what has been counted alone. -/
theorem verdict_eq_verdict (settings : Settings) {r : ρ} {r' : ρ'}
    (htally : Recipient.tally r = Recipient.tally r') :
    verdict settings r = verdict settings r' := by
  rw [verdict, verdict, htally]

/-- Warnings that are denied are counted in the verdict. -/
theorem verdict_of_denied {settings : Settings} {r : ρ} {n : Nat}
    (hdenied : settings.denyWarnings = true)
    (hcount : (Recipient.tally r).count .warning = n + 1) :
    verdict settings r = .error (.warningsDenied (n + 1)) := by
  rw [verdict, hcount, hdenied]
  rfl

/-- **The outcome of a run** is the same with all recipients that count. -/
theorem judged_eq_judged [Recipient.Counts ρ] [Recipient.Counts ρ'] (settings : Settings)
    (roots : List Element) {r : ρ} {r' : ρ'} (htally : Recipient.tally r = Recipient.tally r') :
    judged settings roots r = judged settings roots r' := by
  rw [judged, judged, link, link]
  cases linking settings roots with
  | error cause => rfl
  | ok linked =>
    have hcounted : Recipient.tally (Recipient.recordAll linked.reports r)
        = Recipient.tally (Recipient.recordAll linked.reports r') := by
      rw [Recipient.tally_recordAll, Recipient.tally_recordAll, htally]
    exact congrArg (fun v => Except.ok (linked.graph, v)) (verdict_eq_verdict settings hcounted)

end

/-- **A run with a display** that may fail to write has the outcome of a run with a buffer.  The
display has counted all reports that were made, as the buffer has, and shows those that were
written. -/
theorem judged_display {ω : Type} [Writer ω] {text : ω → String} (hw : Writer.AllOrNothing text)
    (settings : Settings) (roots : List Element) (out : ω) :
    judged settings roots ({ out } : Display ω) = judged settings roots ({} : Buffer)
      ∧ ∀ linked, linking settings roots = .ok linked →
        ∃ (d : Display ω) (b : Buffer), link settings roots { out } = .ok (linked.graph, d)
          ∧ link settings roots {} = .ok (linked.graph, b) ∧ b.reports = linked.reports
          ∧ b.tally = d.tally ∧ d.Shows text out linked.reports := by
  refine ⟨judged_eq_judged settings roots rfl, fun linked hlinked => ?_⟩
  -- the reports are made before any recipient has a say
  have hlink : ∀ {ρ : Type} [Recipient ρ] (r : ρ),
      link settings roots r = .ok (linked.graph, Recipient.recordAll linked.reports r) := by
    intro ρ _ r
    rw [link, hlinked]
    rfl
  have htally : Recipient.tally (Recipient.recordAll linked.reports ({} : Buffer))
      = Recipient.tally (Recipient.recordAll linked.reports ({ out } : Display ω)) := by
    rw [Recipient.tally_recordAll, Recipient.tally_recordAll]
    rfl
  exact ⟨_, _, hlink _, hlink _, Buffer.reports_recordAll _ _, htally,
    Display.shows_recordAll hw _ _⟩

/-- The root of a file with a page whose two references lead nowhere. -/
def strayReferences : Element where
  name := "doxygen"
  attributes := [⟨"version", "1.9.8"⟩]
  content := [.child {
    name := "compounddef"
    attributes := [⟨"id", "page_a"⟩, ⟨"kind", "page"⟩]
    content := [
      .child { name := "compoundname", content := [.text "a"] },
      .child {
        name := "detaileddescription"
        content := [.child {
          name := "para"
          content := [
            .child {
              name := "ref"
              attributes := [⟨"refid", "page_b"⟩, ⟨"kindref", "compound"⟩]
              content := [.text "b"] },
            .child {
              name := "ref"
              attributes := [⟨"refid", "page_c"⟩, ⟨"kindref", "compound"⟩]
              content := [.text "c"] }] }] }] }]

end Project

/-- A destination that takes a text or not, depending on how often it has been asked. -/
structure Unsteady where
  takes : Nat → Bool
  asked : Nat := 0
  text : String := ""

instance : Writer Unsteady where
  write s out :=
    if out.takes out.asked then (true, { out with asked := out.asked + 1, text := out.text ++ s })
    else (false, { out with asked := out.asked + 1 })

/-- This writer puts out the whole text or none of it. -/
theorem Unsteady.allOrNothing : Writer.AllOrNothing Unsteady.text where
  taken s out h := by
    by_cases ht : out.takes out.asked <;> simp [Writer.write, ht] at h ⊢
  refused s out h := by
    by_cases ht : out.takes out.asked <;> simp [Writer.write, ht] at h ⊢

/-- Of two warnings that are denied only the second is written. -/
theorem Project.judged_display_unsteady :
    ∃ (graph : Graph) (d : Display Unsteady),
      link { denyWarnings := true } [strayReferences] { out := { takes := (· = 1) } }
        = .ok (graph, d)
      ∧ judged { denyWarnings := true } [strayReferences]
          ({ out := { takes := (· = 1) } } : Display Unsteady)
        = .ok (graph, .error (.warningsDenied 2))
      ∧ d.dropped = 1
      ∧ d.out.text = "warning: unresolved compound reference `page_c`\n"
        ++ "  note: referenced from `page_a`\n"
        ++ "  help: the reference will be rendered as plain text\n" := by
  -- The project is linked once; the verdict and the text follow from the reports it gave.
  have heval : ((linking { denyWarnings := true } [strayReferences]).toOption.any fun linked =>
      let texts := linked.reports.map Report.text
      linked.reports.countP (·.level = .warning) = 2
        && Writer.failures texts ({ takes := (· = 1) } : Unsteady) = 1
        && String.join (Writer.written texts ({ takes := (· = 1) } : Unsteady))
          = "warning: unresolved compound reference `page_c`\n"
            ++ "  note: referenced from `page_a`\n"
            ++ "  help: the reference will be rendered as plain text\n") = true := by
    decide +kernel
  obtain ⟨linked, hlinked, heval⟩ := exists_eq_ok_of_any heval
  simp only [Bool.and_eq_true, decide_eq_true_eq] at heval
  obtain ⟨⟨hcount, hfailures⟩, hwritten⟩ := heval
  obtain ⟨hsame, hshows⟩ := judged_display Unsteady.allOrNothing { denyWarnings := true }
    [strayReferences] { takes := (· = 1) }
  obtain ⟨d, b, hd, hb, -, htally, hd'⟩ := hshows linked hlinked
  have hwarnings : b.tally.count .warning = 2 := by rw [htally, hd'.counted, hcount]
  refine ⟨linked.graph, d, hd, ?_, hd'.dropped.trans hfailures, ?_⟩
  · have hverdict : verdict { denyWarnings := true } b = .error (.warningsDenied 2) :=
      verdict_of_denied rfl hwarnings
    rw [hsame, judged, hb, ← hverdict]
    rfl
  · rw [hd'.shown, hwritten]
    exact String.empty_append

end DocGraph
