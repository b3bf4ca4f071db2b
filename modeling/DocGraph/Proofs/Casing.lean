import DocGraph.Proofs.Alphabet

namespace DocGraph

/-!
# Permalinks in lower case

Some hosts take paths that differ in case for the same.  Permalinks in lower case are safe there:

* `CaseRun.avoids`, `lowered_ofNat_lowered` — no small letter is a capital again;
* `lowered_of_mem_lowered` — so lower case of a character is in lower case, and to lower it again
  changes nothing;
* `PermalinkStyle.lowered_of_writes` — all that a style with lower case writes is in lower case;
* `Arena.permalinks_lowercase` — the main statement: permalinks are as they would be lowered, and so
  they differ even where case does not matter.
-/

/-! ### Lower case twice -/

/-- Whether no small letter of the first run is a capital of the second: they are out of its reach,
or fall between the capitals of a run that takes every other code point. -/
def CaseRun.avoids (r r' : CaseRun) : Bool :=
  Nat.blt (r.lower + (r.last - r.first)) r'.first || Nat.blt r'.last r.lower
    || (r'.step == 2 && (r.step == 2 || r.first == r.last) && (r.lower + r'.first) % 2 == 1)

/-- No run of capitals leads into another one. -/
theorem all_avoids_caseRuns : caseRuns.all (fun r => caseRuns.all (r.avoids ·)) = true := by
  decide +kernel

/-- The dotted capital I is no small letter. -/
theorem dotted_of_mem_caseRuns : ∀ r ∈ caseRuns,
    r.lower + (r.last - r.first) < 0x130 ∨ 0x130 < r.lower := by decide +kernel

/-- A small letter of one run is no capital of a run that it avoids. -/
theorem CaseRun.covers_eq_false_of_avoids {r r' : CaseRun} (h : r.avoids r' = true) {n : Nat}
    (hn : r.covers n = true) : r'.covers (r.lowered n) = false := by
  simp only [CaseRun.avoids, Bool.or_eq_true, Bool.and_eq_true, Nat.blt_eq, beq_iff_eq] at h
  simp only [CaseRun.covers, Bool.and_eq_true, decide_eq_true_eq, beq_iff_eq] at hn
  by_contra hcovers
  simp only [CaseRun.covers, Bool.not_eq_false, Bool.and_eq_true, decide_eq_true_eq,
    beq_iff_eq] at hcovers
  unfold CaseRun.lowered at hcovers
  -- The lowered run ends before the other, begins behind it, or has the other parity throughout.
  rcases h with (hbehind | hbefore) | ⟨⟨hstep', hstep⟩, hodd⟩
  · omega
  · omega
  · rw [hstep'] at hcovers
    rcases hstep with hstep | hsingle
    · rw [hstep] at hn
      omega
    · omega

/-- The small letter of a capital is the capital of no other. -/
theorem lowered_ofNat_lowered {r : CaseRun} {n : Nat} (hr : r ∈ caseRuns) (hn : r.covers n = true) :
    lowered (Char.ofNat (r.lowered n)) = [Char.ofNat (r.lowered n)] := by
  have hcode := toNat_lowered hr hn
  apply lowered_eq_self
  -- It is no dotted capital, which is a case of its own, and it is in no run of capitals.
  · intro heq
    have hvalue : r.lowered n = 0x130 := hcode.symm.trans (congrArg Char.toNat heq)
    have hrange := dotted_of_mem_caseRuns r hr
    simp only [CaseRun.covers, Bool.and_eq_true, decide_eq_true_eq] at hn
    unfold CaseRun.lowered at hvalue
    omega
  · intro r' hr'
    have havoids := List.all_eq_true.mp (List.all_eq_true.mp all_avoids_caseRuns r hr) r' hr'
    rw [hcode]
    exact CaseRun.covers_eq_false_of_avoids havoids hn

/-- **Lower case is in lower case.** -/
theorem lowered_of_mem_lowered {c d : Char} (hd : d ∈ lowered c) : lowered d = [d] := by
  rcases lowered_cases c with heq | ⟨r, hr, hcovers, heq⟩ | heq
  -- the dotted capital has two characters for its lower case, an ASCII letter and a dot
  · rw [heq] at hd
    rcases List.mem_cons.mp hd with rfl | hd
    · exact lowered_of_ascii (by decide) (by decide)
    · obtain rfl := List.mem_singleton.mp hd
      decide
  · rw [heq] at hd
    obtain rfl := List.mem_singleton.mp hd
    exact lowered_ofNat_lowered hr hcovers
  · obtain rfl := List.mem_singleton.mp (heq ▸ hd)
    exact heq

/-- A text of which every character is in lower case. -/
theorem lowerCase_eq_self {s : String} (hs : ∀ c ∈ s.toList, lowered c = [c]) :
    lowerCase s = s := by
  have hflat : s.toList.flatMap lowered = s.toList.flatMap fun c => [c] :=
    List.flatMap_congr hs
  rw [lowerCase, hflat, List.flatMap_singleton', String.ofList_toList]

/-! ### Permalinks -/

/-- **What is written in lower case** stays as it is when it is lowered. -/
theorem PermalinkStyle.lowered_of_writes {p : PermalinkStyle} (hp : p.lowercase = true) {c : Char}
    (hc : p.Writes c) : lowered c = [c] := by
  rcases hc with rfl | ⟨letter, -, hc⟩
  · exact lowered_of_mem_plain (by simp)
  · rw [cased, if_pos hp] at hc
    exact lowered_of_mem_lowered hc

namespace Arena

theorem lowerCase_permalink {p : PermalinkStyle} (hp : p.lowercase = true) (d : Document)
    (x : Nat) :
    lowerCase ((ofDocument p d).1.toGraph.1.permalink x)
      = (ofDocument p d).1.toGraph.1.permalink x := by
  apply lowerCase_eq_self
  refine forall_mem_permalink (P := fun c => lowered c = [c])
    (sound_link (ofDocument_isWrapped p d)) ?_ ?_ x
  · intro c hc
    exact lowered_of_mem_plain hc
  · intro o ho c hc
    obtain ⟨compound, kind, place, rfl⟩ := exists_of_mem_objects ho
    rcases Object.writesPath_segmentOf p compound kind c hc with rfl | hwritten
    · exact lowered_of_mem_plain (by simp)
    · exact PermalinkStyle.lowered_of_writes hp hwritten

/-- **Permalinks in lower case are safe where case does not matter**, whatever stands for anonymous
scopes: to lower them changes nothing, and so any two of them differ even then. -/
theorem permalinks_lowercase (anonymousPrefix : String) (d : Document) :
    let g := (ofDocument { lowercase := true, anonymousPrefix } d).1.toGraph.1
    (∀ x, x < g.objects.length → lowerCase (g.permalink x) = g.permalink x)
      ∧ ∀ x y, x < g.objects.length → y < g.objects.length → x ≠ y →
          lowerCase (g.permalink x) ≠ lowerCase (g.permalink y) := by
  intro g
  have hstable : ∀ x, lowerCase (g.permalink x) = g.permalink x := lowerCase_permalink rfl d
  refine ⟨fun x _ => hstable x, fun x y hx hy hne heq => ?_⟩
  rw [hstable, hstable] at heq
  exact hne (permalink_injective hx hy heq)

end Arena

end DocGraph
