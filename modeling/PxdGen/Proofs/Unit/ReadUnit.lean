import PxdGen.Proofs.Unit.ReadTypedef
/-! # Reading a flat unit

The declarations under the root are read one after the other. `Stored` says that those read so far
are in the graph and are found in the table, and `Progress` that the file lists what is shown of
them, in their order. Both are kept by reading one more declaration.
-/

namespace PxdGen.Index

open Decl Decl.Work

variable {tree : Tree} {s : Session}

variable {j : Item} {id d : Nat} {α : Type} {type : UnitType} {own : String}

/-! ### What is shown -/

/-- A typedef that only repeats the name of what it stands for. -/
def Item.isRedundant (i : Item) : Bool :=
  match i.content with
  | .typedef (.tagged _ name) => !name.isEmpty && name == i.name
  | _ => false

variable {file : Nat} {i : Item} {g : Graph} {l : List α} {done : List Item}

/-- Nothing that is tagged by a declaration comes before it, so it is shown when it is read. -/
theorem Item.isShown_self (h : ∀ j ∈ done ++ [i], j.tag? ≠ some (i.cursor, "")) :
    i.isShown (done ++ [i]) = !i.isRedundant := by
  have hAny : (done ++ [i]).any (fun j => j.tag? == some (i.cursor, "")) = false := by
    rw [List.any_eq_false]
    intro j hj
    simpa using h j hj
  unfold isShown isRedundant
  rw [hAny]
  cases i.content with
  | typedef type => cases type <;> simp [bne]
  | _ => simp

/-- A declaration is shown as before, unless the new one is a typedef that names it. -/
theorem Item.isShown_append : j.isShown (done ++ [i]) =
      (j.isShown done && !(j.isTag && j.name.isEmpty && i.tag? == some (j.cursor, ""))) := by
  unfold isShown isTag
  cases j.content with
  | typedef type => cases type <;> simp
  | record isUnion fields | enumeration constants => cases j.name.isEmpty <;> simp
  | _ => simp

/-! ### What has been read -/

/-- What a declaration has been read into. -/
def nodeOf (tree : Tree) (t : Table Key Value) (i : Item) : Value :=
  (t.get? (tree.key i.cursor)).getD .nothing

/-- Some declarations of a unit have been read. -/
structure Stored (tree : Tree) (file : Nat) (done : List Item) (g : Graph) (t : Table Key Value) :
    Prop where
  origin : g.origin = .unit
  isFile : g.form? (.link file) = some .file
  root : t.get? (tree.key tree.root) = some (.link file)
  values : ∀ v ∈ t.values, ∃ id name, v = .link id ∧ g.field? v "name" = some (.text name) ∧
    (g.form? v = some .file → id = file)
  node : ∀ i ∈ done, i.isRedundant = false → ∃ id, t.get? (tree.key i.cursor) = some (.link id) ∧
    Holds tree file g t (.link id) i
  inj : ∀ i ∈ done, ∀ j ∈ done, i.isRedundant = false → j.isRedundant = false →
    nodeOf tree t i = nodeOf tree t j → i = j

namespace Stored

variable {file : Nat} {done : List Item} {free : Nat → String → Prop} {cs : List Nat} {g : Graph}
  {t : Table Key Value}

theorem nodeOf_eq (h : t.get? (tree.key i.cursor) = some (.link id)) :
    nodeOf tree t i = .link id := by
  rw [nodeOf, h]
  rfl

/-- What has been read stays so while other cursors are read. -/
theorem extend (h : Stored tree file done s.graph s.table) (hExt : Extends tree free cs s g t)
    (hs : IsSteady free s.graph 0) (hFree : ∀ id name, free id name → IsLate s.graph id name)
    (hRoot : tree.hash tree.root ∉ cs.map tree.hash)
    (hDone : ∀ i ∈ done, tree.hash i.cursor ∉ cs.map tree.hash)
    (hTags : ∀ i ∈ done, ∀ d name, i.tag? = some (d, name) → tree.hash d ∉ cs.map tree.hash) :
    Stored tree file done g t := by
  have hk := hExt.keeps
  have hNode : ∀ i ∈ done, nodeOf tree t i = nodeOf tree s.table i := by
    intro i hi
    rw [nodeOf, nodeOf, hExt.table _ (hDone i hi)]
  refine ⟨hk.origin.trans h.origin, ?_, (hExt.table _ hRoot).trans h.root, ?_, ?_, ?_⟩
  · exact (hk.form file (s.graph.lt_size_of_form? h.isFile)).trans h.isFile
  · intro v hv
    rcases hExt.values v hv with hv | hv
    · obtain ⟨id, name, rfl, hname, hfile⟩ := h.values v hv
      have hid := s.graph.lt_size_of_field? hname
      refine ⟨id, name, rfl, (hk.name id hid).trans hname, fun hf => hfile ?_⟩
      exact (hk.form id hid).symm.trans hf
    · obtain ⟨id, rfl, _⟩ := hv.link
      obtain ⟨name, hname⟩ := hv.name
      obtain ⟨form, hform, hne⟩ := hv.form
      refine ⟨id, name, rfl, hname, fun hf => absurd ?_ hne⟩
      exact Option.some.inj (hform.symm.trans hf)
  · intro i hi hNew
    obtain ⟨id, hid, hHolds⟩ := h.node i hi hNew
    refine ⟨id, (hExt.table _ (hDone i hi)).trans hid, hHolds.keeps hk hs hFree fun d name hd => ?_⟩
    exact hExt.table d (hTags i hi d name hd)
  · intro i hi j hj hi' hj' hEq
    rw [hNode i hi, hNode j hj] at hEq
    exact h.inj i hi j hj hi' hj' hEq

theorem append (h : Stored tree file done g t)
    (hi : i.isRedundant = false → ∃ id, t.get? (tree.key i.cursor) = some (.link id) ∧
      Holds tree file g t (.link id) i ∧
      ∀ j ∈ done, j.isRedundant = false → nodeOf tree t j ≠ .link id) :
    Stored tree file (done ++ [i]) g t := by
  refine ⟨h.origin, h.isFile, h.root, h.values, ?_, ?_⟩
  · intro j hj hNew
    rcases List.mem_append.1 hj with hj | hj
    · exact h.node j hj hNew
    · obtain rfl := List.mem_singleton.1 hj
      obtain ⟨id, hid, hHolds, _⟩ := hi hNew
      exact ⟨id, hid, hHolds⟩
  · have hNe : ∀ j ∈ done, i.isRedundant = false → j.isRedundant = false →
        nodeOf tree t i ≠ nodeOf tree t j := by
      intro j hj hi' hj' hEq
      obtain ⟨id, hid, _, hFresh⟩ := hi hi'
      exact hFresh j hj hj' (hEq.symm.trans (nodeOf_eq hid))
    intro j hj k hk hj' hk' hEq
    rcases List.mem_append.1 hj with hj₁ | hj₁ <;> rcases List.mem_append.1 hk with hk₁ | hk₁
    · exact h.inj j hj₁ k hk₁ hj' hk' hEq
    · obtain rfl := List.mem_singleton.1 hk₁
      exact absurd hEq.symm (hNe j hj₁ hk' hj')
    · obtain rfl := List.mem_singleton.1 hj₁
      exact absurd hEq (hNe k hk₁ hj' hk')
    · rw [List.mem_singleton.1 hj₁, List.mem_singleton.1 hk₁]

/-- A struct, union or enumeration that has been read is known by the cursor that declares it. -/
theorem known (h : Stored tree file done s.graph s.table) (hj : j ∈ done) (hTag : j.isTag = true) :
    ∃ id, Known tree s j.cursor id j.name ∧ Holds tree file s.graph s.table (.link id) j := by
  have hNew : j.isRedundant = false := by
    unfold Item.isTag at hTag
    unfold Item.isRedundant
    cases hc : j.content <;> simp [hc] at hTag ⊢
  obtain ⟨id, hid, hHolds⟩ := h.node j hj hNew
  refine ⟨id, ⟨hid, ⟨_, hHolds.form, ?_⟩, hHolds.name⟩, hHolds⟩
  unfold Item.isTag at hTag
  cases hc : j.content with
  | record isUnion fields => cases isUnion <;> rfl
  | enumeration constants => rfl
  | _ => simp [hc] at hTag

end Stored

/-! ### The next declaration -/

/-- What holds of a declaration in a flat unit, behind those before it. -/
structure Next (tree : Tree) (done : List Item) (i : Item) : Prop where
  declares : tree.Declares i
  distinct : (i.cursors.map tree.hash).Nodup
  root : tree.hash tree.root ∉ i.cursors.map tree.hash
  apart : ∀ j ∈ done, tree.hash j.cursor ∉ i.cursors.map tree.hash
  tags : ∀ type ∈ i.types, ∀ d ∈ type.tags, ∃ j, j.cursor = d ∧ j.isTag = true ∧ (j ∈ done ∨ j = i)
  doneTags : ∀ j ∈ done, ∀ d name, j.tag? = some (d, name) → ∃ k ∈ done, k.cursor = d
  doneDeclares : ∀ j ∈ done, tree.Declares j
  nodup : done.Nodup

theorem nodup_of_nodup_flatMap {β : Type} {f : α → List β} (hf : ∀ a, f a ≠ [])
    (h : (l.flatMap f).Nodup) : l.Nodup := by
  induction l with
  | nil => exact List.nodup_nil
  | cons a l ih =>
    rw [List.flatMap_cons, List.nodup_append] at h
    refine List.nodup_cons.2 ⟨fun ha => ?_, ih h.2.1⟩
    obtain ⟨b, hb⟩ := List.exists_mem_of_ne_nil _ (hf a)
    exact h.2.2 b hb b (List.mem_flatMap.2 ⟨a, ha, hb⟩) rfl

theorem FlatUnit.next {before after : List Item} (h : FlatUnit tree (before ++ i :: after)) :
    Next tree before i := by
  have hMem : i ∈ before ++ i :: after := by simp
  have hNodup : ((tree.root :: (before.flatMap Item.cursors ++ (i.cursors ++
      after.flatMap Item.cursors))).map tree.hash).Nodup := by
    simpa [List.flatMap_append] using h.hashes
  simp only [List.map_cons, List.map_append, List.nodup_cons, List.nodup_append] at hNodup
  obtain ⟨hRoot, hBefore, ⟨hDistinct, _⟩, hApart⟩ := hNodup
  have hCursor : ∀ j : Item, j.cursor ∈ j.cursors := fun j => by simp [Item.cursors]
  refine ⟨h.declares i hMem, hDistinct, ?_, ?_, ?_, ?_, fun j hj => h.declares j (by simp [hj]), ?_⟩
  · intro hmem
    exact hRoot (by simp only [List.mem_append]; exact .inr (.inl hmem))
  · intro j hj hmem
    refine hApart _ (List.mem_map_of_mem ?_) _ (List.mem_append.2 (.inl hmem)) rfl
    exact List.mem_flatMap.2 ⟨j, hj, hCursor j⟩
  · exact h.tags before i after rfl
  · intro j hj d name hTag
    obtain ⟨l₁, l₂, rfl⟩ := List.append_of_mem hj
    rw [Item.tag?_eq_some] at hTag
    obtain ⟨k, hk, hIsTag, hk' | rfl⟩ := h.tags l₁ j (l₂ ++ i :: after) (by simp) (.tagged d name)
      (by simp [Item.types, hTag]) d (by simp [UnitType.tags])
    · exact ⟨k, by simp [hk'], hk⟩
    · simp [Item.isTag, hTag] at hIsTag
  · refine nodup_of_nodup_flatMap (f := fun j => j.cursors.map tree.hash) ?_ ?_
    · simp [Item.cursors]
    · simpa [List.map_flatMap] using hBefore

namespace Next

variable {done : List Item} {i : Item} {file : Nat} (h : Next tree done i)

include h

theorem cursor_ne (hj : j ∈ done) : j.cursor ≠ i.cursor := by
  intro hEq
  exact h.apart j hj (List.mem_map.2 ⟨i.cursor, by simp [Item.cursors], by rw [hEq]⟩)

/-- What a type of the declaration is tagged by is the declaration itself or has been read. -/
theorem tag_cases (hType : type ∈ i.types) (hd : d ∈ type.tags) : d = i.cursor ∧ i.isTag = true ∨
      tree.hash d ∉ i.cursors.map tree.hash ∧ ∃ j ∈ done, j.cursor = d ∧ j.isTag = true := by
  obtain ⟨j, rfl, hTag, hj | rfl⟩ := h.tags type hType d hd
  · exact .inr ⟨h.apart j hj, j, hj, rfl, hTag⟩
  · exact .inl ⟨rfl, hTag⟩

/-- No typedef names a declaration that has not been read. -/
theorem tag?_ne (name : String) : ∀ j ∈ done ++ [i], j.tag? ≠ some (i.cursor, name) := by
  intro j hj hTag
  rcases List.mem_append.1 hj with hj | hj
  · obtain ⟨k, hk, hEq⟩ := h.doneTags j hj _ _ hTag
    exact h.cursor_ne hk hEq
  · obtain rfl := List.mem_singleton.1 hj
    rw [Item.tag?_eq_some] at hTag
    have hType : UnitType.tagged j.cursor name ∈ j.types := by simp [Item.types, hTag]
    have hd : j.cursor ∈ (UnitType.tagged j.cursor name).tags := by simp [UnitType.tags]
    rcases h.tag_cases hType hd with ⟨_, hIsTag⟩ | ⟨_, k, hk, hEq, _⟩
    · simp [Item.isTag, hTag] at hIsTag
    · exact h.cursor_ne hk hEq

theorem known (hs : Stored tree file done s.graph s.table) {d : Nat}
    (hd : ∃ j ∈ done, j.cursor = d ∧ j.isTag = true) : AllKnown tree s [d] := by
  obtain ⟨j, hj, rfl, hTag⟩ := hd
  obtain ⟨id, hKnown, _⟩ := hs.known hj hTag
  intro d hd
  rw [List.mem_singleton.1 hd]
  exact ⟨id, j.name, (h.doneDeclares j hj).stands.spelling, hKnown⟩

/-- All that a declaration mentions is known, if it is no struct or union. -/
theorem allKnown (hs : Stored tree file done s.graph s.table) (hTag : i.isTag = false)
    (hType : type ∈ i.types) : AllKnown tree s type.tags := by
  intro d hd
  rcases h.tag_cases hType hd with ⟨_, hIsTag⟩ | ⟨_, hj⟩
  · simp [hTag] at hIsTag
  · exact h.known hs hj d (by simp)

/-- What a typedef stands for has been read under the name that the typedef knows. -/
theorem tag_known (hs : Stored tree file done s.graph s.table)
    (hi : i.content = .typedef (.tagged d own)) :
    ∃ j ∈ done, j.cursor = d ∧ j.isTag = true ∧ j.name = own ∧
      ∃ r, Known tree s d r own ∧ Holds tree file s.graph s.table (.link r) j := by
  have hType : UnitType.tagged d own ∈ i.types := by simp [Item.types, hi]
  have hd : d ∈ (UnitType.tagged d own).tags := by simp [UnitType.tags]
  have hContent := h.declares.content
  rw [hi] at hContent
  rcases h.tag_cases hType hd with ⟨_, hIsTag⟩ | ⟨_, j, hj, rfl, hTag⟩
  · simp [Item.isTag, hi] at hIsTag
  · have hName : j.name = own := by
      cases hContent with
      | tagged _ _ _ hs => simpa using (h.doneDeclares j hj).stands.spelling.symm.trans hs
    obtain ⟨r, hKnown, hHolds⟩ := hs.known hj hTag
    exact ⟨j, hj, rfl, hTag, hName, r, hName ▸ hKnown, hHolds⟩

end Next

/-! ### What the file lists -/

theorem eraseP_eq_filter {p : α → Bool} (h : l.Pairwise fun a b => ¬ (p a = true ∧ p b = true)) :
    l.eraseP p = l.filter fun a => !p a := by
  induction l with
  | nil => rfl
  | cons a l ih =>
    obtain ⟨ha, hl⟩ := List.pairwise_cons.1 h
    cases hp : p a with
    | false =>
      rw [List.eraseP_cons_of_neg (by simp [hp]), ih hl, List.filter_cons_of_pos (by simp [hp])]
    | true =>
      rw [List.eraseP_cons_of_pos hp, List.filter_cons_of_neg (by simp [hp]), List.filter_eq_self.2]
      intro b hb
      simpa [hp] using ha b hb

theorem without_eq (v : Value) (vs : List Value) : without v vs = vs.eraseP (·.same v) := by
  rw [List.eraseP_eq_eraseIdx, without]
  cases vs.findIdx? (·.same v) <;> rfl

theorem isShown_of_redundant (h : i.isShown done = true) : i.isRedundant = false := by
  unfold Item.isShown at h
  unfold Item.isRedundant
  cases hi : i.content with
  | typedef type =>
    rw [hi] at h
    cases type with
    | tagged d name => cases hn : name.isEmpty <;> simp_all
    | _ => rfl
  | _ => rfl

/-- What the file lists when some declarations have been read. -/
def listed (tree : Tree) (t : Table Key Value) (done beside : List Item) : List Value :=
  (done.filter (Item.isShown beside)).map (nodeOf tree t)

variable {t : Table Key Value}

/-- A declaration that is no typedef of something unnamed leaves the list as it is. -/
theorem listed_append (h : ∀ d, i.tag? ≠ some (d, "")) :
    listed tree t done (done ++ [i]) = listed tree t done done := by
  unfold listed
  congr 1
  refine List.filter_congr fun j _ => ?_
  have hTag : (i.tag? == some (j.cursor, "")) = false := by simpa using h j.cursor
  rw [Item.isShown_append, hTag]
  simp

theorem Next.listed_append_unnamed {r : Nat} (h : Next tree done i) (hs : Stored tree file done g t)
    (hi : i.tag? = some (j.cursor, "")) (hj : j ∈ done) (hTag : j.isTag = true)
    (hName : j.name = "") (hNode : nodeOf tree t j = .link r) :
    listed tree t done (done ++ [i]) = without (.link r) (listed tree t done done) := by
  have hRedundant : j.isRedundant = false := by
    unfold Item.isTag at hTag
    unfold Item.isRedundant
    cases hc : j.content <;> simp [hc] at hTag ⊢
  -- the node of `j` is that of no other declaration
  have hSame :
      ∀ k ∈ done, k.isRedundant = false → ((nodeOf tree t k).same (.link r) = true ↔ k = j) := by
    intro k hk hk'
    obtain ⟨id, hid, _⟩ := hs.node k hk hk'
    constructor
    · intro hSame
      refine hs.inj k hk j hj hk' hRedundant ?_
      rw [Stored.nodeOf_eq hid] at hSame ⊢
      have : id = r := by simpa [Value.same] using hSame
      rw [hNode, this]
    · rintro rfl
      rw [hNode]
      simp [Value.same]
  have hPairwise : (done.filter (Item.isShown done)).Pairwise fun a b =>
      ¬ ((nodeOf tree t a).same (.link r) = true ∧ (nodeOf tree t b).same (.link r) = true) := by
    refine (h.nodup.filter _).imp_of_mem fun ha hb hne => ?_
    rintro ⟨ha', hb'⟩
    obtain ⟨ha, hShown⟩ := List.mem_filter.1 ha
    obtain ⟨hb, hShown'⟩ := List.mem_filter.1 hb
    rw [hSame _ ha (isShown_of_redundant hShown)] at ha'
    rw [hSame _ hb (isShown_of_redundant hShown')] at hb'
    exact hne (ha'.trans hb'.symm)
  unfold listed
  rw [without_eq, List.eraseP_map, Function.comp_def, eraseP_eq_filter hPairwise,
    List.filter_filter]
  congr 1
  refine List.filter_congr fun k hk => ?_
  rw [Item.isShown_append]
  cases hShown : k.isShown done with
  | false => simp
  | true =>
    have hk' := isShown_of_redundant hShown
    by_cases hEq : k = j
    · subst hEq
      have hEmpty : k.name.isEmpty = true := by
        rw [hName]
        rfl
      simp [(hSame k hk hk').2 rfl, hTag, hEmpty, hi]
    · have hNode' : (nodeOf tree t k).same (.link r) = false := by
        rw [Bool.eq_false_iff]
        exact fun hs => hEq ((hSame k hk hk').1 hs)
      have hTag' : (i.tag? == some (k.cursor, "")) = false := by
        simp only [hi, beq_eq_false_iff_ne, ne_eq, Option.some.injEq, Prod.mk.injEq, and_true]
        intro hc
        exact hEq (hs.inj k hk j hj hk' hRedundant (by rw [nodeOf, nodeOf, hc]))
      simp [hNode', hTag']

/-! ### Reading the next declaration -/

/-- What reading a declaration does to what has been read before. -/
structure ReadsNext (tree : Tree) (file : Nat) (x : Work Value) (done : List Item) (i : Item)
    (s : Session) (id : Nat) (g : Graph) (t : Table Key Value) : Prop where
  reads : ReadsItem tree file x i s id g t
  frame : ∃ free, Extends tree free i.cursors s g t ∧ IsSteady free s.graph 0 ∧
    ∀ id name, free id name → IsLate s.graph id name
  members : g.field? (.link file) "members" = some (.list (listed tree s.table done (done ++ [i])))

theorem isSteady_or {free free' : Nat → String → Prop} {low : Nat} (h : IsSteady free g low)
    (h' : IsSteady free' g low) :
    IsSteady (fun id name => free id name ∨ free' id name) g low :=
  fun id e hid he hs name hf => hf.elim (h id e hid he hs name) (h' id e hid he hs name)

section Next

variable {done : List Item} {i : Item} {file n : Nat} {rest : List Value}
  (h : Next tree done i) (hs : Stored tree file done s.graph s.table)
  (hMembers : s.graph.field? (.link file) "members" = some (.list (listed tree s.table done done)))

include hMembers

theorem readsNext_of_keeps {x : Work Value} (hReads : ReadsItem tree file x i s id g t)
    (hExt : Extends tree (fun _ _ => False) i.cursors s g t) (hTag : ∀ d, i.tag? ≠ some (d, "")) :
    ReadsNext tree file x done i s id g t := by
  refine ⟨hReads, ⟨_, hExt, isSteady_none _ _, fun _ _ => False.elim⟩, ?_⟩
  rw [listed_append hTag]
  exact (hExt.keeps.field file (s.graph.lt_size_of_field? hMembers) _ False.elim).trans hMembers

include h hs

theorem readsNext_typedef_tagged (hText : s.openText = none) (hKey : s.openKey = none)
    (hi : i.content = .typedef (.tagged d own)) (hNew : i.isRedundant = false)
    (level : Nat) : ∃ id g t, ReadsNext tree file
      (readElement tree (n + 1) (.numbered i.cursor) level) done i s id g t := by
  obtain ⟨j, hj, rfl, hTag, hName, r, hKnown, hHolds⟩ := h.tag_known hs hi
  have hr := s.graph.lt_size_of_field? hKnown.name
  have hFile := s.graph.lt_size_of_field? hMembers
  obtain ⟨form, hForm, hTagged⟩ := hKnown.form
  have hSettled : isSettled form = false := by cases form <;> first | rfl | cases hTagged
  have hHash : tree.hash i.cursor ≠ tree.hash j.cursor := fun hEq =>
    h.apart j hj (List.mem_map.2 ⟨i.cursor, by simp [Item.cursors], hEq⟩)
  have hCursors : i.cursors = [i.cursor] := by simp [Item.cursors, hi]
  have hSteady := isSteady_of_form hForm hSettled "typedef_name" 0
  let g₁ := s.graph.setField r "typedef_name" (.text i.name)
  have hName₁ : (g₁.field? (.link r) "typedef_name").isSome := by
    rw [Graph.field?_setField s.graph hr, if_pos ⟨rfl, rfl⟩]
    rfl
  have hKeeps₁ : KeepsBut (Only r "typedef_name") s.graph g₁ :=
    KeepsBut.setField hr _ (by simp) ⟨rfl, rfl⟩
  by_cases hOwn : own = ""
  · -- what has no name leaves the list of the file
    have hContext : s.graph.field? (.link r) "context" = some (.link file) := by
      have hContent := hHolds.content
      unfold Item.isTag at hTag
      cases hc : j.content with
      | record isUnion fields | enumeration constants => exact (hc ▸ hContent).1
      | _ => simp [hc] at hTag
    have hBy := yields_nameByTypedef_unnamed h.declares.stands.spelling hKnown.name hOwn
      hKnown.table hContext hMembers level
    have hMembers₁ := (hKeeps₁.field file hFile "members" (by simp [Only])).trans hMembers
    have hUnlisted := keepsBut_unlisted (g₁.lt_size_of_field? hMembers₁) (.link r)
      (listed tree s.table done done)
    let free : Nat → String → Prop := fun id name => Only r "typedef_name" id name ∨
      Only file "members" id name
    have hKeeps₂ : KeepsBut free s.graph _ :=
      (hKeeps₁.weaken fun _ _ => .inl).trans hUnlisted fun _ _ _ => .inr
    obtain ⟨id, g, t, hReads, hExt, hKeeps⟩ := h.declares.reads_typedef_tagged hText hKey hi
      hKnown hHash hBy hKeeps₂ (hUnlisted.has _ _ hName₁)
    refine ⟨id, g, t, hReads, ⟨free, hCursors ▸ hExt, ?_, ?_⟩, ?_⟩
    · exact isSteady_or hSteady (isSteady_of_form hs.isFile rfl "members" 0)
    · rintro id name (⟨_, rfl⟩ | ⟨rfl, rfl⟩)
      · exact .inr (.inl rfl)
      · exact .inr (.inr ⟨rfl, hs.isFile⟩)
    · have hList := field?_unlisted hMembers₁ (.link r)
      have hlt := Graph.lt_size_of_field? _ hList
      rw [h.listed_append_unnamed hs (Item.tag?_eq_some.2 (hOwn ▸ hi)) hj hTag (hName.trans hOwn)
        (Stored.nodeOf_eq hKnown.table)]
      exact (hKeeps.field file hlt _ (Nat.not_le.2 hlt)).trans hList
  · have hBy := yields_nameByTypedef h.declares.stands.spelling hKnown.name hOwn
      (.int (tree.hash j.cursor)) level
    have hOther : (!own == i.name) = true := by
      simpa [Item.isRedundant, hi, hOwn] using hNew
    rw [hOther] at hBy
    obtain ⟨id, g, t, hReads, hExt, hKeeps⟩ := h.declares.reads_typedef_tagged hText hKey hi
      hKnown hHash hBy hKeeps₁ hName₁
    have hTag' : ∀ d, i.tag? ≠ some (d, "") := by
      intro d hd
      rw [Item.tag?_eq_some, hi] at hd
      cases hd
      exact hOwn rfl
    refine ⟨id, g, t, hReads, ⟨_, hCursors ▸ hExt, hSteady, fun _ _ hf => .inr (.inl hf.2)⟩, ?_⟩
    rw [listed_append hTag']
    exact (hExt.keeps.field file hFile _ (by simp [Only])).trans hMembers

/-- **The next declaration is read.** -/
theorem exists_readsNext (hText : s.openText = none) (hKey : s.openKey = none)
    (hTop : s.context = .link file :: rest) (hNew : i.isRedundant = false) (level : Nat) :
    ∃ id g t, ReadsNext tree file (readElement tree (n + 2) (.numbered i.cursor) level) done i s
      id g t := by
  have hDeclares := h.declares
  have hTypes : ∀ type ∈ i.types, i.isTag = false → AllKnown tree s type.tags :=
    fun type hType hTag => h.allKnown hs hTag hType
  have hNoTag : (∀ d name, i.content ≠ .typedef (.tagged d name)) → ∀ d, i.tag? ≠ some (d, "") :=
    fun hne d hd => hne d "" (Item.tag?_eq_some.1 hd)
  cases hi : i.content with
  | record isUnion fields =>
    have hKnown : ∀ f ∈ fields, ∀ d ∈ f.type.tags, d = i.cursor ∨
        tree.hash d ∉ i.cursors.map tree.hash ∧ AllKnown tree s [d] := by
      intro f hf d hd
      have hType : f.type ∈ i.types := by
        simp only [Item.types, hi]
        exact List.mem_map_of_mem hf
      exact (h.tag_cases hType hd).imp (·.1) fun hd => ⟨hd.1, h.known hs hd.2⟩
    obtain ⟨id, g, t, hReads, hExt⟩ := hDeclares.reads_record hs.origin hText hKey hi hTop
      h.distinct hKnown
    exact ⟨id, g, t, readsNext_of_keeps hMembers hReads hExt (hNoTag (by simp [hi]))⟩
  | enumeration constants =>
    obtain ⟨id, g, t, hReads, hExt⟩ := hDeclares.reads_enumeration hs.origin hText hKey hi hTop
      h.distinct
    exact ⟨id, g, t, readsNext_of_keeps hMembers hReads hExt (hNoTag (by simp [hi]))⟩
  | function result params =>
    have hTag : i.isTag = false := by simp [Item.isTag, hi]
    obtain ⟨id, g, t, hReads, hExt⟩ := hDeclares.reads_function hs.origin hText hKey hi
      (hTypes result (by simp [Item.types, hi]) hTag)
      (fun p hp => hTypes p.type (by simp [Item.types, hi]; exact .inr ⟨p, hp, rfl⟩) hTag)
    exact ⟨id, g, t, readsNext_of_keeps hMembers hReads (by simpa [Item.cursors, hi] using hExt)
      (hNoTag (by simp [hi]))⟩
  | global type =>
    obtain ⟨id, g, t, hReads, hExt⟩ := hDeclares.reads_global hs.origin hText hKey hi
      (hTypes type (by simp [Item.types, hi]) (by simp [Item.isTag, hi]))
    exact ⟨id, g, t, readsNext_of_keeps hMembers hReads (by simpa [Item.cursors, hi] using hExt)
      (hNoTag (by simp [hi]))⟩
  | typedef type =>
    by_cases hne : ∀ d name, type ≠ .tagged d name
    · obtain ⟨id, g, t, hReads, hExt⟩ := hDeclares.reads_typedef_plain hText hKey hs.origin hi hne
        (hTypes type (by simp [Item.types, hi]) (by simp [Item.isTag, hi]))
      exact ⟨id, g, t, readsNext_of_keeps hMembers hReads (by simpa [Item.cursors, hi] using hExt)
        (hNoTag (by simpa [hi] using hne))⟩
    · simp only [ne_eq, Classical.not_forall, Classical.not_not] at hne
      obtain ⟨d, own, rfl⟩ := hne
      exact readsNext_typedef_tagged h hs hMembers hText hKey hi hNew level

end Next

/-! ### The whole unit -/

/-- Some declarations have been read, and the file lists what is shown of them. -/
structure Progress (tree : Tree) (file : Nat) (done : List Item) (g : Graph) (t : Table Key Value) :
    Prop where
  stored : Stored tree file done g t
  members : g.field? (.link file) "members" = some (.list (listed tree t done done))

section Run

variable {done : List Item} {i : Item} {file n : Nat} {rest : List Value}
  (hText : s.openText = none) (hKey : s.openKey = none) (hTop : s.context = .link file :: rest)

/-- What is shown has been read into what is listed. -/
theorem listed_append_self {t' : Table Key Value} (h : Next tree done i)
    (hTable : ∀ j ∈ done, nodeOf tree t' j = nodeOf tree t j) :
    listed tree t' (done ++ [i]) (done ++ [i]) =
      listed tree t done (done ++ [i]) ++ if i.isRedundant then [] else [nodeOf tree t' i] := by
  unfold listed
  rw [List.filter_append, List.map_append]
  congr 1
  · refine List.map_congr_left fun j hj => hTable j (List.mem_filter.1 hj).1
  · cases hi : i.isRedundant <;> simp [Item.isShown_self (h.tag?_ne ""), hi]

include hText hKey

/-- Reading a typedef that only repeats a name. -/
theorem Progress.step_redundant (hp : Progress tree file done s.graph s.table)
    (h : Next tree done i) (hi : i.isRedundant = true) (level : Nat) :
    ∃ g, Yields (readElement tree (n + 1) (.numbered i.cursor) level) s .nothing
        { s with graph := g } ∧ Progress tree file (done ++ [i]) g s.table := by
  obtain ⟨d, hContent, hNamed⟩ : ∃ d, i.content = .typedef (.tagged d i.name) ∧ i.name ≠ "" := by
    unfold Item.isRedundant at hi
    split at hi
    · rename_i d name hc
      simp only [Bool.and_eq_true, Bool.not_eq_true', beq_iff_eq] at hi
      exact ⟨d, hi.2 ▸ hc, fun hEmpty => by simp [hi.2, hEmpty] at hi⟩
    · cases hi
  obtain ⟨j, hj, rfl, hTag, hName, r, hKnown, _⟩ := h.tag_known hp.stored hContent
  have hr := s.graph.lt_size_of_field? hKnown.name
  have hFile := s.graph.lt_size_of_field? hp.members
  obtain ⟨form, hForm, hTagged⟩ := hKnown.form
  have hSettled : isSettled form = false := by cases form <;> first | rfl | cases hTagged
  have hKeeps : KeepsBut (Only r "typedef_name") s.graph
      (s.graph.setField r "typedef_name" (.text i.name)) :=
    KeepsBut.setField hr _ (by simp) ⟨rfl, rfl⟩
  have hExt : Extends tree (Only r "typedef_name") [] s _ s.table := Extends.graph hKeeps
  have hStored : Stored tree file done _ s.table :=
    hp.stored.extend hExt (isSteady_of_form hForm hSettled _ 0) (fun _ _ hf => .inr (.inl hf.2))
      (by simp) (by simp) (by simp)
  refine ⟨_, h.declares.yields_typedef_redundant hText hKey hContent hKnown hNamed, ?_, ?_⟩
  · exact hStored.append fun hNew => by simp [hi] at hNew
  · rw [listed_append_self h fun _ _ => rfl, listed_append, if_pos hi, List.append_nil]
    · exact (hKeeps.field file hFile _ (by simp [Only])).trans hp.members
    · intro d hd
      rw [Item.tag?_eq_some, hContent] at hd
      simp only [Content.typedef.injEq, UnitType.tagged.injEq] at hd
      exact hNamed hd.2

include hTop

/-- Reading any other declaration and adding it to the file. -/
theorem Progress.step (hp : Progress tree file done s.graph s.table) (h : Next tree done i)
    (hNew : i.isRedundant = false) (level : Nat) :
    ∃ id g t g', Yields (readElement tree (n + 2) (.numbered i.cursor) level) s (.link id)
        { s with graph := g, table := t } ∧
      Yields (takesChildren (.link file)) { s with graph := g, table := t } true
        { s with graph := g, table := t } ∧
      Yields (add "add_child" (.link file) (.link id)) { s with graph := g, table := t } ()
        { s with graph := g', table := t } ∧ Progress tree file (done ++ [i]) g' t := by
  obtain ⟨id, g, t, hReads⟩ := exists_readsNext h hp.stored hp.members hText hKey hTop hNew level
    (n := n)
  obtain ⟨free, hExt, hSteady, hLate⟩ := hReads.frame
  let s₁ : Session := { s with graph := g, table := t }
  have hStored : Stored tree file done g t := by
    refine hp.stored.extend hExt hSteady hLate h.root h.apart fun j hj d name hd => ?_
    obtain ⟨k, hk, rfl⟩ := h.doneTags j hj d name hd
    exact h.apart k hk
  have hTable : ∀ j ∈ done, nodeOf tree t j = nodeOf tree s.table j := by
    intro j hj
    rw [nodeOf, nodeOf, hExt.table _ (h.apart j hj)]
  have hStored₁ : Stored tree file (done ++ [i]) g t := by
    refine hStored.append fun _ => ⟨id, hReads.reads.table, hReads.reads.holds, ?_⟩
    intro j hj hj' hEq
    obtain ⟨id', hid', hHolds⟩ := hp.stored.node j hj hj'
    rw [hTable j hj, Stored.nodeOf_eq hid'] at hEq
    cases hEq
    exact Nat.not_lt.2 hReads.reads.new (s.graph.lt_size_of_form? hHolds.form)
  have hFile := g.lt_size_of_field? hReads.members
  let g' := g.setField file "members" (.list (listed tree s.table done (done ++ [i]) ++ [.link id]))
  have hKeeps : KeepsBut (Only file "members") g g' :=
    KeepsBut.setField hFile _ (by simp) ⟨rfl, rfl⟩
  have hSlot : slot? .unit .file "add_child" = some ⟨"members", true⟩ := rfl
  have hExt₁ : Extends tree (Only file "members") [] s₁ g' t := Extends.graph hKeeps
  refine ⟨id, g, t, g', hReads.reads.yields, ?_, ?_, ?_, ?_⟩
  · exact yields_takesChildren (s := s₁) hStored.origin hStored.isFile hSlot
  · exact yields_add (s := s₁) hStored.origin hStored.isFile hSlot id hReads.members
  · refine hStored₁.extend (s := s₁) hExt₁ (isSteady_of_form hStored.isFile rfl _ 0) ?_ (by simp)
      (by simp) (by simp)
    rintro _ _ ⟨rfl, rfl⟩
    exact .inr (.inr ⟨rfl, hStored.isFile⟩)
  · rw [Graph.field?_setField g hFile, if_pos ⟨rfl, rfl⟩, listed_append_self h hTable,
      if_neg (by simp [hNew]), Stored.nodeOf_eq hReads.reads.table]

end Run

/-- **All declarations are read**, one after the other. -/
theorem Progress.run {n : Nat} {rest : List Value} (level : Nat) (todo : List Item)
    (hUnit : FlatUnit tree (done ++ todo)) {s : Session} (hText : s.openText = none)
    (hKey : s.openKey = none) (hTop : s.context = .link file :: rest)
    (hp : Progress tree file done s.graph s.table) :
    ∃ g t, Yields (readChildren (readElement tree (n + 2)) (.link file) level (todo.map (·.cursor)))
        s () { s with graph := g, table := t } ∧ Progress tree file (done ++ todo) g t := by
  induction todo generalizing done s with
  | nil => exact ⟨s.graph, s.table, .pure _ _, by simpa using hp⟩
  | cons i todo ih =>
    have hNext := hUnit.next
    have hUnit' : FlatUnit tree ((done ++ [i]) ++ todo) := by simpa using hUnit
    cases hi : i.isRedundant with
    | true =>
      obtain ⟨g₁, hYields, hp₁⟩ := hp.step_redundant hText hKey hNext hi (level + 1) (n := n + 1)
      obtain ⟨g, t, hRest, hp'⟩ := ih hUnit' (s := { s with graph := g₁ }) hText hKey hTop hp₁
      exact ⟨g, t, Yields.bind hYields hRest, by simpa using hp'⟩
    | false =>
      obtain ⟨id, g₁, t₁, g₂, hYields, hTakes, hAdd, hp₁⟩ := hp.step hText hKey hTop hNext hi
        (level + 1) (n := n)
      obtain ⟨g, t, hRest, hp'⟩ := ih hUnit' (s := { s with graph := g₂, table := t₁ }) hText hKey
        hTop hp₁
      refine ⟨g, t, Yields.bind hYields (Yields.bind hTakes ?_), by simpa using hp'⟩
      rw [if_pos rfl]
      exact Yields.bind hAdd hRest

def fileEntry (name : String) : Entry :=
  ⟨.file, [("location", .nothing), ("name", .text name), ("members", .list [])]⟩

/-- **A flat unit is read** into a file that lists what is shown of its declarations. -/
theorem FlatUnit.yields_readTree {items : List Item} (h : FlatUnit tree items)
    (ho : s.graph.origin = .unit) (hTable : s.table = {}) (hText : s.openText = none)
    (hKey : s.openKey = none) :
    ∃ file g t context, Yields (readTree tree) s (.link file)
        { s with graph := g, table := t, context := context } ∧ Progress tree file items g t := by
  obtain ⟨kind, hk, hn⟩ := h.root
  obtain ⟨typeKind, hType⟩ := h.rootType
  obtain ⟨n, hNesting⟩ : ∃ n, nesting tree = n + 3 := by
    refine ⟨nesting tree - 3, ?_⟩
    have : 2 * 2 ≤ nesting tree := Nat.mul_le_mul (by omega) (by omega)
    omega
  let file := s.graph.entries.size
  let e := fileEntry (tree.cursor (.numbered tree.root)).display
  let g₁ := (s.graph.add e).2
  let s₁ : Session := { s with graph := g₁, context := .link file :: s.context }
  let s₂ : Session := { entered tree tree.root file s₁ with context := .link file :: s₁.context }
  have he : g₁.get? file = some e := s.graph.get?_add_self e
  have hlt := g₁.lt_size_of_get? he
  have hName := g₁.field?_of_get? he "name"
  have hLocated : KeepsBut (Only file "location") g₁ s₂.graph := keepsBut_located tree _ hlt
  have hVisit : Yields (visit tree (typeReader tree (readElement tree (n + 2)))
      (.numbered tree.root) kind 0) s (.link file) s₁ := by
    simp only [visit, hn]
    refine Yields.bind (yields_make (e := e) ?_) (Yields.bind (yields_push _) (.pure _ _))
    rw [ho]
    rfl
  have hStored : Stored tree file [] s₂.graph s₂.table := by
    refine ⟨hLocated.origin.trans ho, (hLocated.form file hlt).trans (g₁.form?_of_get? he),
      Table.get?_insert_self _ _ _, ?_, by simp, by simp⟩
    intro v hv
    rcases Table.mem_values_insert _ _ hv with rfl | hv
    · exact ⟨file, _, rfl, (hLocated.name file hlt).trans hName, fun _ => rfl⟩
    · have hEmpty : s.table.values = [] := by rw [hTable]; rfl
      have hv : v ∈ s.table.values := hv
      simp [hEmpty] at hv
  have hProgress : Progress tree file [] s₂.graph s₂.table :=
    ⟨hStored, (hLocated.field file hlt "members" (by simp [Only])).trans
      (g₁.field?_of_get? he "members")⟩
  obtain ⟨g, t, hChildren, hp⟩ := hProgress.run (n := n) 0 items h (s := s₂) hText hKey rfl
  refine ⟨file, g, t, .link file :: s.context, ?_, hp⟩
  rw [readTree, hNesting]
  refine yields_parent hk hType (p := s₁) hVisit hName (by simp [isEntered, hn]) (.inr hn)
    (q := { s₂ with graph := g, table := t }) ?_ rfl hText hKey
  rw [h.children]
  exact hChildren

end PxdGen.Index
