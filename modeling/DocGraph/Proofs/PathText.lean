import DocGraph.Proofs.Alphabet

namespace DocGraph

/-!
# What permalinks are written with

A permalink is made of slugs, digests, numbers, slashes and hyphens.  No character of these comes
before the hyphen in the order of characters, which leaves out all white space of ASCII and the
number sign, so a permalink may be followed by any of these and still be found again.

* `isPathChar`, `IsPathText` — such characters, and texts of them alone;
* `isPathChar_of_writes`, `Arena.isPathText_permalink` — whatever the style, permalinks are made of
  these.
-/

/-- The hyphen and the characters after it. -/
def isPathChar (c : Char) : Bool := '-' ≤ c

/-- A text of such characters. -/
def IsPathText (s : String) : Prop := ∀ c ∈ s.toList, isPathChar c = true

/-- These are the characters from the hyphen on, slashes included. -/
theorem isPathChar_iff {c : Char} : isPathChar c = true ↔ 0x2d ≤ c.toNat := by
  rw [isPathChar, decide_eq_true_eq, Char.le_def, UInt32.le_iff_toNat_le]
  exact Iff.rfl

/-- Such a text holds no number sign. -/
theorem IsPathText.number_sign_not_mem {s : String} (hs : IsPathText s) : '#' ∉ s.toList :=
  fun hmem => absurd (hs '#' hmem) (by decide)

/-- All characters that are written in path components are among them. -/
theorem isPathChar_of_writes {p : PermalinkStyle} {c : Char} (hc : p.Writes c) :
    isPathChar c = true := by
  rcases PermalinkStyle.eq_or_le_toNat_of_writes hc with rfl | hle
  · decide
  · rw [isPathChar_iff]
    omega

/-- **All permalinks** are such texts. -/
theorem Arena.isPathText_permalink {a : Arena} (ha : a.IsWrapped) (x : Nat) :
    IsPathText (a.toGraph.1.permalink x) := by
  intro c hc
  refine forall_mem_permalink (P := fun c => isPathChar c = true) (sound_link ha) ?_ ?_ x c hc
  · have hall : ('-' :: '/' :: plainLetters).all isPathChar = true := by decide
    exact List.all_eq_true.mp hall
  · intro o ho c hc
    obtain ⟨p, d, kind, place, rfl⟩ := ha o ho
    rcases Object.writesPath_segmentOf p d kind c hc with rfl | hwritten
    · decide
    · exact isPathChar_of_writes hwritten

end DocGraph
