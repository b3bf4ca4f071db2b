import DocGraph.Object.ScopeName
import DocGraph.Proofs.RefIdBytes

namespace DocGraph

/-!
# The scopes of a name

A qualified name falls into scopes wherever there is a separator outside of template arguments.
What is within template arguments is told by counting brackets, in one pass from the left:

* `deeper`, `depthBehind` — how many brackets are open behind a character, and behind a text;
* `SplitsAt`, `scope_induction` — where there is a split, and induction along the pass;
* `intercalate_scopesFrom` — the scopes of a text make up the text;
* `depthBehind_of_split`, `unsplittable_scopesFrom` — no split lies in brackets, and no scope has
  scopes of its own;
* `scopesFrom_append` — a text that closes its brackets is split from what follows it;
* `scopesOfBytes`, `scopesOfBytes_encode` — the pass over the bytes of a text finds the same scopes,
  so no character is cut in two;
* `scopesOf_splits` — the main statement, all of that for names.
-/

/-! ### Depth -/

/-- The number of open brackets behind a character.  A closing bracket closes nothing if there is no
open one. -/
def deeper (depth : Nat) (c : Char) : Nat :=
  if c = '<' then depth + 1 else if c = '>' then depth - 1 else depth

/-- The number of open brackets behind a text. -/
def depthBehind (depth : Nat) (cs : List Char) : Nat := cs.foldl deeper depth

/-- What stands between two scopes. -/
def scopeSeparator : List Char := [':', ':']

/-- Whether a text is split where it begins. -/
def SplitsAt (depth : Nat) (cs : List Char) : Prop := depth = 0 ∧ scopeSeparator <+: cs

/-! ### One step -/

section

variable {depth : Nat} {c : Char} {current cs rest before after first : List Char}
  {others : List (List Char)}

/-- Outside all brackets, a separator ends a scope. -/
theorem scopesFrom_separator (current rest : List Char) :
    scopesFrom 0 current (':' :: ':' :: rest) = current.reverse :: scopesFrom 0 [] rest := by
  simp [scopesFrom]

/-- Any other character belongs to the scope. -/
theorem scopesFrom_cons (hsplit : ¬ SplitsAt depth (c :: rest)) :
    scopesFrom depth current (c :: rest) = scopesFrom (deeper depth c) (c :: current) rest := by
  -- One goal for each equation: no more text, a bracket, a separator that `hsplit` forbids, others.
  rw [scopesFrom.eq_def]
  split
  · rename_i heq
    cases heq
  · rename_i heq
    obtain ⟨rfl, rfl⟩ := List.cons.inj heq
    rfl
  · rename_i heq
    obtain ⟨rfl, rfl⟩ := List.cons.inj heq
    rfl
  · rename_i heq
    obtain ⟨rfl, rfl⟩ := List.cons.inj heq
    rw [if_neg]
    · rfl
    · rintro rfl
      exact hsplit ⟨rfl, List.prefix_append scopeSeparator _⟩
  · rename_i hopen hclose _ heq
    obtain ⟨rfl, rfl⟩ := List.cons.inj heq
    have hdeeper : deeper depth c = depth := by
      unfold deeper
      rw [if_neg hopen, if_neg hclose]
    rw [hdeeper]

/-- **Induction along the pass**: a text is at its end, or begins with a separator between two
scopes, or with a character of a scope. -/
theorem scope_induction {P : Nat → List Char → Prop} (nil : ∀ depth, P depth [])
    (separator : ∀ rest, P 0 rest → P 0 (':' :: ':' :: rest))
    (char : ∀ depth c rest, ¬ SplitsAt depth (c :: rest) → P (deeper depth c) rest →
      P depth (c :: rest)) (depth : Nat) (cs : List Char) : P depth cs := by
  -- a separator is two characters long, so the induction is on the length of the text
  induction hlen : cs.length using Nat.strongRecOn generalizing depth cs with
  | ind n ih =>
    cases cs with
    | nil => exact nil depth
    | cons c rest =>
      rw [List.length_cons] at hlen
      by_cases hsplit : SplitsAt depth (c :: rest)
      · obtain ⟨rfl, after, hafter⟩ := hsplit
        obtain ⟨rfl, rfl⟩ := List.cons.inj hafter
        have hshorter : (':' :: after).length + 1 = n := hlen
        rw [List.length_cons] at hshorter
        exact separator after (ih after.length (by omega) 0 after rfl)
      · exact char depth c rest hsplit (ih rest.length (by omega) _ rest rfl)

/-- What has been read of a scope is the beginning of the first one. -/
theorem scopesFrom_eq_modifyHead (depth : Nat) (current cs : List Char) :
    scopesFrom depth current cs = (scopesFrom depth [] cs).modifyHead (current.reverse ++ ·) := by
  induction depth, cs using scope_induction generalizing current with
  | nil depth => simp [scopesFrom]
  | separator rest ih => simp [scopesFrom_separator]
  | char depth c rest hsplit ih =>
    rw [scopesFrom_cons hsplit, scopesFrom_cons hsplit, ih (c :: current), ih [c],
      List.modifyHead_modifyHead]
    congr 1
    funext scope
    simp

/-- A character of a scope stands in front of what follows. -/
theorem scopesFrom_nil_cons (hsplit : ¬ SplitsAt depth (c :: rest)) :
    scopesFrom depth [] (c :: rest)
      = (scopesFrom (deeper depth c) [] rest).modifyHead (c :: ·) := by
  rw [scopesFrom_cons hsplit, scopesFrom_eq_modifyHead]
  rfl

/-- There is a first scope. -/
theorem exists_scopesFrom_eq_cons (depth : Nat) (cs : List Char) :
    ∃ first others, scopesFrom depth [] cs = first :: others := by
  induction depth, cs using scope_induction with
  | nil depth => exact ⟨[], [], by simp [scopesFrom]⟩
  | separator rest ih => exact ⟨[], _, scopesFrom_separator [] rest⟩
  | char depth c rest hsplit ih =>
    obtain ⟨first, others, heq⟩ := ih
    exact ⟨c :: first, others, by rw [scopesFrom_nil_cons hsplit, heq, List.modifyHead_cons]⟩

/-- A character before the first scope is one before all. -/
theorem intercalate_cons_scope (first : List Char) (others : List (List Char)) :
    scopeSeparator.intercalate ((c :: first) :: others)
      = c :: scopeSeparator.intercalate (first :: others) := by
  cases others <;> simp [List.intercalate_cons_cons]

/-! ### Properties of scopes -/

/-- **The scopes of a text** make up the text. -/
theorem intercalate_scopesFrom (depth : Nat) (cs : List Char) :
    scopeSeparator.intercalate (scopesFrom depth [] cs) = cs := by
  induction depth, cs using scope_induction with
  | nil depth => simp [scopesFrom]
  | separator rest ih =>
    obtain ⟨first, others, heq⟩ := exists_scopesFrom_eq_cons 0 rest
    rw [scopesFrom_separator, heq, List.reverse_nil, List.intercalate_cons_cons, ← heq, ih]
    rfl
  | char depth c rest hsplit ih =>
    obtain ⟨first, others, heq⟩ := exists_scopesFrom_eq_cons (deeper depth c) rest
    rw [scopesFrom_nil_cons hsplit, heq, List.modifyHead_cons, intercalate_cons_scope, ← heq, ih]

/-- **No split lies in brackets.** -/
theorem depthBehind_of_split {left right : List (List Char)}
    (hscopes : scopesFrom depth [] cs = left ++ right) (hleft : left ≠ []) (hright : right ≠ []) :
    depthBehind depth (scopeSeparator.intercalate left) = 0 := by
  induction depth, cs using scope_induction generalizing left with
  | nil depth =>
    have hlength := congrArg List.length hscopes
    have hl := List.length_pos_of_ne_nil hleft
    have hr := List.length_pos_of_ne_nil hright
    simp [scopesFrom] at hlength
    omega
  | separator rest ih =>
    obtain ⟨first, left, rfl⟩ := List.exists_cons_of_ne_nil hleft
    rw [scopesFrom_separator, List.cons_append] at hscopes
    obtain ⟨rfl, hrest⟩ := List.cons.inj hscopes
    -- the scopes on the left end here, behind the separator, or go on
    cases left with
    | nil => rfl
    | cons second left =>
      rw [List.reverse_nil, List.intercalate_cons_cons]
      exact ih hrest (by simp)
  | char depth c rest hsplit ih =>
    obtain ⟨first, others, heq⟩ := exists_scopesFrom_eq_cons (deeper depth c) rest
    obtain ⟨_, left, rfl⟩ := List.exists_cons_of_ne_nil hleft
    rw [scopesFrom_nil_cons hsplit, heq, List.modifyHead_cons, List.cons_append] at hscopes
    obtain ⟨rfl, rfl⟩ := List.cons.inj hscopes
    rw [intercalate_cons_scope]
    rw [← List.cons_append] at heq
    exact ih heq (by simp)

/-- A split does not depend on what comes later. -/
theorem not_splitsAt_of_prefix (hsplit : ¬ SplitsAt depth (c :: rest)) (hfirst : first <+: rest) :
    ¬ SplitsAt depth (c :: first) :=
  fun h => hsplit ⟨h.1, h.2.trans (List.prefix_cons_inj c |>.mpr hfirst)⟩

/-- The name begins with its first scope. -/
theorem first_prefix_of_scopesFrom (heq : scopesFrom depth [] cs = first :: others) :
    first <+: cs := by
  have hjoin := intercalate_scopesFrom depth cs
  rw [heq] at hjoin
  cases others with
  | nil => simp [← hjoin]
  | cons second others =>
    rw [List.intercalate_cons_cons, List.append_assoc] at hjoin
    exact ⟨_, hjoin⟩

/-- **No scope has scopes of its own**: the first one is read at the depth of the text, and all
others where no bracket is open. -/
theorem unsplittable_scopesFrom (heq : scopesFrom depth [] cs = first :: others) :
    scopesFrom depth [] first = [first] ∧ ∀ scope ∈ others, scopesFrom 0 [] scope = [scope] := by
  induction depth, cs using scope_induction generalizing first others with
  | nil depth =>
    simp only [scopesFrom, List.reverse_nil, List.cons.injEq] at heq
    obtain ⟨rfl, rfl⟩ := heq
    simp [scopesFrom]
  | separator rest ih =>
    rw [scopesFrom_separator] at heq
    obtain ⟨rfl, rfl⟩ := List.cons.inj heq
    obtain ⟨second, others, hrest⟩ := exists_scopesFrom_eq_cons 0 rest
    refine ⟨rfl, ?_⟩
    rw [hrest]
    exact List.forall_mem_cons.mpr (ih hrest)
  | char depth c rest hsplit ih =>
    obtain ⟨first', others', hrest⟩ := exists_scopesFrom_eq_cons (deeper depth c) rest
    rw [scopesFrom_nil_cons hsplit, hrest, List.modifyHead_cons] at heq
    obtain ⟨rfl, rfl⟩ := List.cons.inj heq
    -- what does not split before the whole rest does not split before the part kept of it
    have hfirst := not_splitsAt_of_prefix hsplit (first_prefix_of_scopesFrom hrest)
    refine ⟨?_, (ih hrest).2⟩
    rw [scopesFrom_nil_cons hfirst, (ih hrest).1, List.modifyHead_cons]

/-- **A text without scopes of its own** has its separators in brackets. -/
theorem depthBehind_ne_zero_of_unsplittable (hcs : scopesFrom depth [] cs = [cs])
    (heq : cs = before ++ (scopeSeparator ++ after)) : depthBehind depth before ≠ 0 := by
  induction depth, cs using scope_induction generalizing before with
  | nil depth => simp [scopeSeparator] at heq
  | separator rest ih => simp [scopesFrom_separator] at hcs
  | char depth c rest hsplit ih =>
    cases before with
    | nil =>
      rintro rfl
      exact hsplit ⟨rfl, heq ▸ List.prefix_append scopeSeparator after⟩
    | cons d before =>
      obtain ⟨rfl, hrest⟩ := List.cons.inj heq
      obtain ⟨first, others, hscopes⟩ := exists_scopesFrom_eq_cons (deeper depth c) rest
      rw [scopesFrom_nil_cons hsplit, hscopes, List.modifyHead_cons] at hcs
      simp only [List.cons.injEq, true_and] at hcs
      exact ih (by rw [hscopes, hcs.1, hcs.2]) hrest

/-- The last character of a text is that of its rest. -/
theorem getLast?_ne_of_cons {d : Char} (h : (c :: rest).getLast? ≠ some d) :
    rest.getLast? ≠ some d := by
  cases rest with
  | nil => simp
  | cons e rest => simpa using h

/-- **A text that closes its brackets** is split from what follows, unless its last character would
be taken for the beginning of the separator. -/
theorem scopesFrom_append (hclosed : depthBehind depth before = 0)
    (hcolon : before.getLast? ≠ some ':') (after : List Char) :
    scopesFrom depth [] (before ++ (scopeSeparator ++ after))
      = scopesFrom depth [] before ++ scopesFrom 0 [] after := by
  induction depth, before using scope_induction with
  | nil depth =>
    obtain rfl : depth = 0 := hclosed
    rfl
  | separator rest ih =>
    have hrest := getLast?_ne_of_cons (getLast?_ne_of_cons hcolon)
    rw [List.cons_append, List.cons_append, scopesFrom_separator, scopesFrom_separator,
      ih hclosed hrest]
    rfl
  | char depth c rest hsplit ih =>
    have hlonger : ¬ SplitsAt depth (c :: (rest ++ (scopeSeparator ++ after))) := by
      -- either the last character is a colon, or the separator was there before
      rintro ⟨rfl, hbegin⟩
      obtain ⟨rfl, hsecond⟩ := List.cons_prefix_cons.mp hbegin
      cases rest with
      | nil => simp at hcolon
      | cons d rest =>
        obtain ⟨rfl, -⟩ := List.cons_prefix_cons.mp hsecond
        exact hsplit ⟨rfl, List.prefix_append scopeSeparator rest⟩
    obtain ⟨first, others, hscopes⟩ := exists_scopesFrom_eq_cons (deeper depth c) rest
    rw [List.cons_append, scopesFrom_nil_cons hlonger, scopesFrom_nil_cons hsplit,
      ih hclosed (getLast?_ne_of_cons hcolon), hscopes]
    rfl

end

/-! ### Bytes -/

/-- The bytes of the separator. -/
def separatorBytes : List UInt8 := [0x3a, 0x3a]

/-- The pass over bytes, with the brackets told by theirs.  `current` is the scope read so far, last
byte first. -/
def scopesOfBytesFrom (depth : Nat) (current bytes : List UInt8) : List (List UInt8) :=
  match bytes with
  | [] => [current.reverse]
  | b :: rest =>
    if b = 0x3c then scopesOfBytesFrom (depth + 1) (b :: current) rest
    else if b = 0x3e then scopesOfBytesFrom (depth - 1) (b :: current) rest
    else if depth = 0 ∧ separatorBytes.isPrefixOf (b :: rest) then
      current.reverse :: scopesOfBytesFrom 0 [] (rest.drop 1)
    else scopesOfBytesFrom depth (b :: current) rest
termination_by bytes.length

/-- The bytes between the separators outside of brackets. -/
def scopesOfBytes (bytes : List UInt8) : List (List UInt8) := scopesOfBytesFrom 0 [] bytes

section

variable {depth : Nat} {c : Char} {rest : List Char}

/-- Bytes of characters that are neither brackets nor colons. -/
theorem scopesOfBytesFrom_append {bytes : List UInt8}
    (hbytes : ∀ b ∈ bytes, b ≠ 0x3c ∧ b ≠ 0x3e ∧ b ≠ 0x3a) (depth : Nat)
    (current others : List UInt8) :
    scopesOfBytesFrom depth current (bytes ++ others)
      = scopesOfBytesFrom depth (bytes.reverse ++ current) others := by
  induction bytes generalizing current with
  | nil => rfl
  | cons b bytes ih =>
    obtain ⟨⟨hopen, hclose, hcolon⟩, hbytes⟩ := List.forall_mem_cons.mp hbytes
    have hsplit : ¬ (depth = 0 ∧ separatorBytes.isPrefixOf (b :: (bytes ++ others)) = true) := by
      rintro ⟨-, hbegin⟩
      rw [List.isPrefixOf_iff_prefix] at hbegin
      exact hcolon (List.cons_prefix_cons.mp hbegin).1.symm
    rw [List.cons_append, scopesOfBytesFrom, if_neg hopen, if_neg hclose, if_neg hsplit, ih hbytes]
    simp

/-- **A character of a scope**, in bytes. -/
theorem scopesOfBytesFrom_char (hsplit : ¬ SplitsAt depth (c :: rest)) (current : List UInt8) :
    scopesOfBytesFrom depth current ((c :: rest).flatMap String.utf8EncodeChar)
      = scopesOfBytesFrom (deeper depth c) ((String.utf8EncodeChar c).reverse ++ current)
          (rest.flatMap String.utf8EncodeChar) := by
  rw [List.flatMap_cons]
  by_cases hopen : c = '<'
  · subst hopen
    show scopesOfBytesFrom depth current (0x3c :: rest.flatMap String.utf8EncodeChar) = _
    rw [scopesOfBytesFrom, if_pos rfl]
    rfl
  by_cases hclose : c = '>'
  · subst hclose
    show scopesOfBytesFrom depth current (0x3e :: rest.flatMap String.utf8EncodeChar) = _
    rw [scopesOfBytesFrom, if_neg (by decide), if_pos rfl]
    rfl
  have hdeeper : deeper depth c = depth := by rw [deeper, if_neg hopen, if_neg hclose]
  rw [hdeeper]
  by_cases hcolon : c = ':'
  · subst hcolon
    -- a second colon in bytes is one in the text
    have hbegin : ¬ (depth = 0 ∧ separatorBytes.isPrefixOf
        (0x3a :: rest.flatMap String.utf8EncodeChar) = true) := by
      rintro ⟨rfl, hbegin⟩
      rw [List.isPrefixOf_iff_prefix] at hbegin
      obtain ⟨after, rfl⟩ := RefId.exists_eq_cons_of_bytes (d := ':')
        (List.cons_prefix_cons.mp hbegin).2 rfl (by decide)
      exact hsplit ⟨rfl, List.prefix_append scopeSeparator after⟩
    show scopesOfBytesFrom depth current (0x3a :: rest.flatMap String.utf8EncodeChar) = _
    rw [scopesOfBytesFrom, if_neg (by decide), if_neg (by decide), if_neg hbegin]
    rfl
  · -- no byte of any other character is one of a bracket or a colon
    apply scopesOfBytesFrom_append
    intro b hb
    refine ⟨?_, ?_, ?_⟩ <;> rintro rfl
    · exact hopen (RefId.eq_of_mem_encodeChar hb rfl (by decide))
    · exact hclose (RefId.eq_of_mem_encodeChar hb rfl (by decide))
    · exact hcolon (RefId.eq_of_mem_encodeChar hb rfl (by decide))

/-- **Bytes fall apart as characters do**, whatever has been read of the scope before. -/
theorem scopesOfBytesFrom_flatMap (depth : Nat) (current : List UInt8) (cs : List Char) :
    scopesOfBytesFrom depth current (cs.flatMap String.utf8EncodeChar)
      = ((scopesFrom depth [] cs).map (·.flatMap String.utf8EncodeChar)).modifyHead
          (current.reverse ++ ·) := by
  induction depth, cs using scope_induction generalizing current with
  | nil depth => simp [scopesFrom, scopesOfBytesFrom]
  | separator rest ih =>
    show scopesOfBytesFrom 0 current (0x3a :: 0x3a :: rest.flatMap String.utf8EncodeChar) = _
    rw [scopesOfBytesFrom, if_neg (by decide), if_neg (by decide), if_pos ⟨rfl, by rfl⟩,
      List.drop_one, List.tail_cons, ih, scopesFrom_separator]
    obtain ⟨first, others, heq⟩ := exists_scopesFrom_eq_cons 0 rest
    simp [heq]
  | char depth c rest hsplit ih =>
    obtain ⟨first, others, heq⟩ := exists_scopesFrom_eq_cons (deeper depth c) rest
    rw [scopesOfBytesFrom_char hsplit, ih, scopesFrom_nil_cons hsplit, heq]
    simp

end

/-! ### Names -/

section

variable {name : String}

/-- The scopes of a name are found character by character. -/
theorem toList_scopesOf (name : String) :
    (scopesOf name).map String.toList = scopesFrom 0 [] name.toList := by
  simp [scopesOf]

/-- **The pass over bytes** finds the scopes of a name. -/
theorem scopesOfBytes_encode (name : String) :
    scopesOfBytes (Utf8.encode name) = (scopesOf name).map Utf8.encode := by
  obtain ⟨first, others, heq⟩ := exists_scopesFrom_eq_cons 0 name.toList
  rw [scopesOfBytes, Utf8.encode, scopesOfBytesFrom_flatMap, scopesOf, heq]
  simp [Utf8.encode]

theorem toList_intercalate_scopes (scopes : List String) :
    ("::".intercalate scopes).toList = scopeSeparator.intercalate (scopes.map String.toList) := by
  rw [String.toList_intercalate]
  rfl

/-- **A scope is not divided any further.** -/
theorem scopesFrom_of_mem_scopesOf {scope : String} (hscope : scope ∈ scopesOf name) :
    scopesFrom 0 [] scope.toList = [scope.toList] := by
  obtain ⟨first, others, heq⟩ := exists_scopesFrom_eq_cons 0 name.toList
  have hmem : scope.toList ∈ first :: others := by
    rw [← heq, ← toList_scopesOf]
    exact List.mem_map_of_mem hscope
  obtain ⟨hfirst, hothers⟩ := unsplittable_scopesFrom heq
  rcases List.mem_cons.mp hmem with hscope | hscope
  · rw [hscope, hfirst]
  · exact hothers _ hscope

/-- **A qualified name falls into its scopes**, of which there is at least one: joined by separators
they make up the name, and none of them can be split further, for all the separators in it are in
brackets.  What closes its brackets is split from what follows it, unless it ends in a colon, no
split is made in brackets, and all splits are between characters. -/
theorem scopesOf_splits :
    (∀ name, scopesOf name ≠ [] ∧ "::".intercalate (scopesOf name) = name)
      ∧ (∀ name, ∀ scope ∈ scopesOf name, scopesOf scope = [scope]
        ∧ ∀ before after : String, scope = before ++ "::" ++ after →
          0 < depthBehind 0 before.toList)
      ∧ (∀ outer inner : String, depthBehind 0 outer.toList = 0 →
          outer.toList.getLast? ≠ some ':' →
          scopesOf (outer ++ "::" ++ inner) = scopesOf outer ++ scopesOf inner)
      ∧ (∀ name left right, scopesOf name = left ++ right → left ≠ [] → right ≠ [] →
          depthBehind 0 ("::".intercalate left).toList = 0)
      ∧ ∀ name, scopesOfBytes (Utf8.encode name) = (scopesOf name).map Utf8.encode := by
  -- Names are joined as texts and split as characters.
  have hjoined : ∀ before after : String, (before ++ "::" ++ after).toList
      = before.toList ++ (scopeSeparator ++ after.toList) := by
    intro before after
    rw [String.toList_append, String.toList_append, List.append_assoc]
    rfl
  refine ⟨fun name => ⟨?nonempty, ?join⟩, fun name scope hscope => ⟨?single, ?brackets⟩,
    fun outer inner hclosed hcolon => ?append, fun name left right hscopes hleft hright => ?depth,
    scopesOfBytes_encode⟩
  case nonempty =>
    obtain ⟨first, others, heq⟩ := exists_scopesFrom_eq_cons 0 name.toList
    simp [scopesOf, heq]
  case join =>
    rw [← String.toList_inj, toList_intercalate_scopes, toList_scopesOf, intercalate_scopesFrom]
  case single =>
    rw [scopesOf, scopesFrom_of_mem_scopesOf hscope, List.map_singleton, String.ofList_toList]
  case brackets =>
    rintro before after rfl
    have hsingle := scopesFrom_of_mem_scopesOf hscope
    have hdepth := depthBehind_ne_zero_of_unsplittable hsingle (hjoined before after)
    omega
  case append =>
    rw [scopesOf, hjoined, scopesFrom_append hclosed hcolon, List.map_append]
    rfl
  case depth =>
    have hsplit := toList_scopesOf name
    rw [hscopes, List.map_append] at hsplit
    rw [toList_intercalate_scopes]
    exact depthBehind_of_split hsplit.symm (by simpa using hleft) (by simpa using hright)

/-- A template that is closed, with a separator in it, and one behind it that a colon follows. -/
theorem scopesOf_splits_template :
    (depthBehind 0 "é::B<c::D>".toList = 0 ∧ "é::B<c::D>".toList.getLast? ≠ some ':'
        ∧ scopesOf ("é::B<c::D>" ++ "::" ++ ":e") = scopesOf "é::B<c::D>" ++ scopesOf ":e")
      ∧ (scopesOf "é::B<c::D>" = ["é"] ++ ["B<c::D>"]
        ∧ depthBehind 0 ("::".intercalate ["é"]).toList = 0)
      ∧ "B<c::D>" ∈ scopesOf "é::B<c::D>" ∧ "B<c::D>" = "B<c" ++ "::" ++ "D>"
      ∧ 0 < depthBehind 0 "B<c".toList := by
  have hclosed : depthBehind 0 "é::B<c::D>".toList = 0 := by decide
  have hcolon : "é::B<c::D>".toList.getLast? ≠ some ':' := by decide
  have hscopes : scopesOf "é::B<c::D>" = ["é"] ++ ["B<c::D>"] := by decide
  have hscope : "B<c::D>" ∈ scopesOf "é::B<c::D>" := by rw [hscopes]; simp
  have hseparator : "B<c::D>" = "B<c" ++ "::" ++ "D>" := by decide
  obtain ⟨-, hscopesOf, happend, hdepth, -⟩ := scopesOf_splits
  exact ⟨⟨hclosed, hcolon, happend _ ":e" hclosed hcolon⟩,
    ⟨hscopes, hdepth _ _ _ hscopes (by decide) (by decide)⟩,
    hscope, hseparator, (hscopesOf _ _ hscope).2 _ _ hseparator⟩

end

end DocGraph
