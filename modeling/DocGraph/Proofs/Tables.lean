import DocGraph.Graph.Table
import DocGraph.Proofs.Building
import DocGraph.Proofs.PathText

namespace DocGraph

/-!
# Reading the table of permalinks

Whoever reads the table divides it at line ends, and its lines at tabs.  What comes of that is what
has been written only if no field holds a line end or a tab.  Collections and permalinks never do,
but nothing keeps these characters out of ids:

* `tableFields` — the fields of the lines of a table;
* `Graph.rows` — what the table tells of each object;
* `tabulated`, `tableFields_tabulated`, `isField_of_tableFields` — **a table can be read back** if
  and only if each of its fields is free of separators;
* `Graph.tableFields_table_iff` — hence if and only if all ids are;
* `Graph.tableFields_brokenPage` — and some are not.
-/

/-- The fields of the lines of a table, each of which has a line end behind it. -/
def tableFields (table : String) : List (List String) :=
  (table.toList.splitOn '\n').dropLast.map fun line => (line.splitOn '\t').map String.ofList

/-- What the table tells of each object, in document order. -/
def Graph.rows (g : Graph) : List (List String) :=
  g.objects.zipIdx.map fun (o, x) => [o.collection.name, o.id, g.permalink x]

/-! ### Lines and fields -/

/-- A text without the characters that separate fields and lines. -/
def IsField (s : String) : Prop := '\t' ∉ s.toList ∧ '\n' ∉ s.toList

instance (s : String) : Decidable (IsField s) := inferInstanceAs (Decidable (_ ∧ _))

/-- The table of some rows. -/
def tabulated (rows : List (List String)) : String :=
  String.join (rows.map fun row => "\t".intercalate row ++ "\n")

section

variable {sep c : Char} {cs piece : List Char} {row : List String} {rows : List (List String)}

/-- The pieces of a text hold nothing but what stands between the separators. -/
theorem mem_and_ne_of_mem_splitOn (hpiece : piece ∈ cs.splitOn sep) (hc : c ∈ piece) :
    c ∈ cs ∧ c ≠ sep := by
  induction cs generalizing piece with
  | nil =>
    obtain rfl := List.mem_singleton.mp hpiece
    exact absurd hc List.not_mem_nil
  | cons x cs ih =>
    rw [List.splitOn_cons_eq_if_modifyHead] at hpiece
    split at hpiece
    case isTrue =>
      rcases List.mem_cons.mp hpiece with rfl | hpiece
      · exact absurd hc List.not_mem_nil
      · exact (ih hpiece hc).imp_left (List.mem_cons_of_mem x)
    -- the character joins the first piece, and the other pieces stay
    case isFalse hx =>
      obtain ⟨first, others, hsplit⟩ := List.exists_cons_of_ne_nil (List.splitOn_ne_nil sep cs)
      rw [hsplit, List.modifyHead_cons] at hpiece
      rcases List.mem_cons.mp hpiece with rfl | hpiece
      · rcases List.mem_cons.mp hc with rfl | hc
        · exact ⟨List.mem_cons_self, fun heq => hx (beq_iff_eq.mpr heq)⟩
        · exact (ih (hsplit ▸ List.mem_cons_self) hc).imp_left (List.mem_cons_of_mem x)
      · exact (ih (hsplit ▸ List.mem_cons_of_mem first hpiece) hc).imp_left (List.mem_cons_of_mem x)

/-- **What is read** holds no separators. -/
theorem isField_of_tableFields {table field : String} (hrow : row ∈ tableFields table)
    (hfield : field ∈ row) : IsField field := by
  obtain ⟨line, hline, rfl⟩ := List.mem_map.mp hrow
  obtain ⟨piece, hpiece, rfl⟩ := List.mem_map.mp hfield
  rw [IsField, String.toList_ofList]
  constructor
  · exact fun htab => (mem_and_ne_of_mem_splitOn hpiece htab).2 rfl
  · intro hend
    have hline' := (mem_and_ne_of_mem_splitOn hpiece hend).1
    exact (mem_and_ne_of_mem_splitOn (List.dropLast_subset _ hline) hline').2 rfl

/-- There is no line end in a row of fields. -/
theorem lineEnd_not_mem_intercalate (hrow : ∀ field ∈ row, IsField field) :
    '\n' ∉ ("\t".intercalate row).toList := by
  have hseparator : "\t".toList = ['\t'] := rfl
  rw [String.toList_intercalate, hseparator, mem_intercalate_iff (by decide), List.mem_flatten]
  rintro ⟨cs, hcs, hend⟩
  obtain ⟨field, hfield, rfl⟩ := List.mem_map.mp hcs
  exact (hrow field hfield).2 hend

/-- **A table falls apart into its rows**, with nothing behind the last one. -/
theorem splitOn_tabulated (hrows : ∀ row ∈ rows, ∀ field ∈ row, IsField field) :
    (tabulated rows).toList.splitOn '\n'
      = rows.map (fun row => ("\t".intercalate row).toList) ++ [[]] := by
  induction rows with
  | nil => rfl
  | cons row rows ih =>
    rw [List.forall_mem_cons] at hrows
    have hcons : (tabulated (row :: rows)).toList
        = ("\t".intercalate row).toList ++ '\n' :: (tabulated rows).toList := by
      simp [tabulated, String.join_cons]
    rw [hcons, List.splitOn_append_cons_self,
      List.splitOn_eq_singleton (lineEnd_not_mem_intercalate hrows.1), ih hrows.2]
    rfl

/-- **Fields without separators can be read back.** -/
theorem tableFields_tabulated (hne : [] ∉ rows)
    (hrows : ∀ row ∈ rows, ∀ field ∈ row, IsField field) : tableFields (tabulated rows) = rows := by
  -- Fields hold no tabs, so a line is split where its fields were joined.
  have hrow : ∀ row ∈ rows,
      ((("\t".intercalate row).toList.splitOn '\t').map String.ofList) = row := by
    intro row hmem
    have htab : ∀ cs ∈ row.map String.toList, '\t' ∉ cs := by
      intro cs hcs
      obtain ⟨field, hfield, rfl⟩ := List.mem_map.mp hcs
      exact (hrows row hmem field hfield).1
    have hseparator : "\t".toList = ['\t'] := rfl
    have hempty : row ≠ [] := fun heq => hne (heq ▸ hmem)
    rw [String.toList_intercalate, hseparator,
      List.splitOn_intercalate '\t' htab (by simpa using hempty)]
    simp
  rw [tableFields, splitOn_tabulated hrows, List.dropLast_concat, List.map_map]
  exact (List.map_congr_left hrow).trans (List.map_id _)

end

/-! ### Graphs -/

namespace Graph

variable {g : Graph} {o : Object} {x : Nat}

/-- The table of a graph is made of rows of fields. -/
theorem table_eq_tabulated (g : Graph) : g.table = tabulated g.rows := by
  rw [table, tabulated, rows, List.map_map]
  congr 1

/-- Each object has a row of three fields. -/
theorem mem_rows_iff {row : List String} :
    row ∈ g.rows
      ↔ ∃ x o, g.objects[x]? = some o ∧ row = [o.collection.name, o.id, g.permalink x] := by
  rw [rows, List.mem_map]
  constructor
  · rintro ⟨⟨o, x⟩, ho, rfl⟩
    exact ⟨x, o, Arena.mem_zipIdx_objects.mp ho, rfl⟩
  · rintro ⟨x, o, ho, rfl⟩
    exact ⟨(o, x), Arena.mem_zipIdx_objects.mpr ho, rfl⟩

/-- What has been read back tells of every id as it is. -/
theorem isField_id_of_tableFields (hg : tableFields g.table = g.rows)
    (ho : g.objects[x]? = some o) :
    IsField o.id := by
  have hrow : [o.collection.name, o.id, g.permalink x] ∈ tableFields g.table := by
    rw [hg]
    exact mem_rows_iff.mpr ⟨x, o, ho, rfl⟩
  exact isField_of_tableFields hrow (by simp)

end Graph

theorem Collection.isField_name (c : Collection) : IsField c.name := by cases c <;> decide

theorem IsPathText.isField {s : String} (hs : IsPathText s) : IsField s :=
  ⟨fun htab => absurd (hs '\t' htab) (by decide), fun hend => absurd (hs '\n' hend) (by decide)⟩

/-- **The table can be read back** if and only if no id holds a separator. -/
theorem Graph.tableFields_table_iff (style : PermalinkStyle) (d : Document) :
    let g := (Arena.ofDocument style d).1.toGraph.1
    tableFields g.table = g.rows ↔ ∀ o ∈ g.objects, IsField o.id := by
  intro g
  constructor
  · intro hg o ho
    obtain ⟨x, ho⟩ := List.getElem?_of_mem ho
    exact isField_id_of_tableFields hg ho
  · intro hids
    rw [table_eq_tabulated]
    refine tableFields_tabulated ?_ fun row hrow field hfield => ?_
    · intro hempty
      obtain ⟨x, o, -, heq⟩ := mem_rows_iff.mp hempty
      cases heq
    · obtain ⟨x, o, ho, rfl⟩ := mem_rows_iff.mp hrow
      simp only [List.mem_cons, List.not_mem_nil, or_false] at hfield
      -- the name of the collection and the permalink are fields in any case
      rcases hfield with rfl | rfl | rfl
      · exact o.collection.isField_name
      · exact hids o (List.mem_of_getElem? ho)
      · exact (Arena.isPathText_permalink (Arena.ofDocument_isWrapped style d) x).isField

/-- The root of a file with a page, in whose id there is a line end. -/
def brokenPage : Element where
  name := "doxygen"
  attributes := [⟨"version", "1.9.8"⟩]
  content := [
    .child {
      name := "compounddef"
      attributes := [⟨"id", "page\na"⟩, ⟨"kind", "page"⟩]
      content := [.child { name := "compoundname", content := [.text "a"] }] }]

/-- **A line end in an id breaks its line**, so that one object has two lines. -/
theorem Graph.tableFields_brokenPage :
    ∃ d, Document.ofRoots [brokenPage] = .ok d
      ∧ (Arena.ofDocument {} d).1.toGraph.1.rows = [["pages", "page\na", "pages/a"]]
      ∧ tableFields (Arena.ofDocument {} d).1.toGraph.1.table
        = [["pages", "page"], ["a", "pages/a"]] := by
  have heval : (Document.ofRoots [brokenPage]).toOption.any (fun d =>
      (Arena.ofDocument {} d).1.toGraph.1.rows == [["pages", "page\na", "pages/a"]]) = true := by
    decide +kernel
  obtain ⟨d, hd, hrows⟩ := exists_eq_ok_of_any heval
  rw [beq_iff_eq] at hrows
  refine ⟨d, hd, hrows, ?_⟩
  rw [table_eq_tabulated, hrows]
  decide +kernel

end DocGraph
