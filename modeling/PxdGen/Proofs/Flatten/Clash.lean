import PxdGen.Proofs.Flatten.Names
/-! # Clashes of names in the flattened list

The names of toplevel containers stay when they are flattened, and those of nested ones are mangled.
So the names in the flattened list are different unless two nested containers at one depth have
paths that read the same, or one of the paths reads like another with `_t` behind it.
-/

namespace PxdGen.Decl

open Work Decl.Graph

variable {g : Graph} {tops : List Value}

variable {p c d : Nat} {path q : List String} {x : Value}

/-! ### The flattened list -/

theorem perm_liftedItems (start : Nat) (cs : List Nat) : (liftedItems start cs).Perm
    (cs.map .link ++ (List.range' start cs.length).map .link) := by
  induction cs generalizing start with
  | nil => exact .nil
  | cons c cs ih =>
    have hRest :
      liftedItems start (c :: cs) = .link c :: .link start :: liftedItems (start + 1) cs := rfl
    rw [hRest, List.length_cons, List.range'_succ]
    exact .cons _ ((ih (start + 1)).cons _ |>.trans List.perm_middle.symm)

namespace Unfolds

variable {roots new : List Nat} {vs out : List Value}

theorem perm (h : Unfolds g roots vs out new) : out.Perm (vs ++ ((g.liftedFrom new).map .link ++
    (List.range' (g.entries.size + (g.liftedFrom roots).length) (g.liftedFrom new).length).map
    .link)) := by
  induction h with
  | nil => exact .nil
  | keep _ _ ih => exact ih.cons _
  | @lift roots v r vs out new hr hNew h ih =>
    have hAll := (perm_liftedItems (g.entries.size + (g.liftedFrom roots).length)
      (g.under r)).append (ih.cons v)
    have hRange : List.range' (g.entries.size + (g.liftedFrom roots).length)
        (g.liftedFrom (r :: new)).length = List.range'
          (g.entries.size + (g.liftedFrom roots).length) (g.under r).length ++
          List.range' (g.entries.size + (g.liftedFrom (roots ++ [r])).length)
              (g.liftedFrom new).length := by
      rw [liftedFrom_cons, liftedFrom_append, List.length_append, List.length_append,
        ← List.range'_append_1]
      simp [liftedFrom, Nat.add_assoc]
    rw [hRange, liftedFrom_cons, List.map_append, List.map_append, List.append_assoc _ _ (_ ++ _)]
    rw [List.append_assoc, ← List.cons_append] at hAll
    refine hAll.trans ((List.perm_append_comm_assoc _ _ _).append_left _ |>.trans ?_)
    refine (List.perm_append_comm_assoc _ _ _).trans (.append_left _ (.append_left _ ?_))
    exact List.perm_append_comm_assoc _ _ _

theorem nodup_out (hf : NamedForest g tops) (h : Unfolds g [] tops out new) (hNodup : tops.Nodup) :
    out.Nodup := by
  have hroot : ∀ q ∈ new, g.Root tops q := fun q hq => (h.root hf.toForest (fun _ hv => hv) hq).1
  have hLinks : ∀ {ids : List Nat}, ids.Nodup → (ids.map Value.link).Nodup := fun hids =>
    hids.map fun _ _ => Value.link.inj
  have hNested : ∀ c ∈ g.liftedFrom new, c < g.entries.size ∧ .link c ∉ tops := fun c hc => by
    obtain ⟨p, hp, hn⟩ := Lifts.nested_of_mem_liftedFrom hf.toForest hroot hc
    exact ⟨hf.valid c (.member hp hn), hf.not_top p c hp hn⟩
  refine h.perm.nodup_iff.2 (List.nodup_append.2 ⟨hNodup, List.nodup_append.2
    ⟨hLinks (hf.nodup_liftedFrom (by simpa using h.nodup (by simp)) hroot),
    hLinks List.nodup_range', ?_⟩, ?_⟩)
  · -- what has been lifted is old, and the typedefs are new
    simp only [List.mem_map]
    rintro _ ⟨c, hc, rfl⟩ _ ⟨t, ht, rfl⟩ e
    have := (hNested c hc).1
    have := Value.link.inj e
    simp only [List.mem_range'_1] at ht
    omega
  · rintro x hx _ hy rfl
    simp only [List.mem_append, List.mem_map] at hy
    obtain ⟨c, hc, rfl⟩ | ⟨t, ht, rfl⟩ := hy
    · exact (hNested c hc).2 hx
    · have := hf.valid t (.top hx)
      simp only [List.mem_range'_1] at ht
      omega

end Unfolds

/-! ### Clashes -/

/-- Two nested containers of one depth whose paths read the same, or of which the one reads like the
other with `_t` behind it. -/
def Graph.Clash (g : Graph) (tops : List Value) : Prop :=
  ∃ c d p q, g.Spelled tops c p ∧ g.Spelled tops d q ∧ 2 ≤ p.length ∧ p.length = q.length ∧
    (c ≠ d ∧ spell p = spell q ∨ spell p ++ "_t" = spell q)

/-- What a declaration of the flattened list is called, if `cs` have been lifted. -/
inductive Called (g : Graph) (tops : List Value) (cs : List Nat) : Value → String → Prop where
  | top {r : Nat} {name : String} : .link r ∈ tops → g.field? (.link r) "name" = some (.text name) →
    Called g tops cs (.link r) name
  | nested {c : Nat} {path : List String} : c ∈ cs → g.Spelled tops c path → 2 ≤ path.length →
    Called g tops cs (.link c) (mangle path)
  | typedef {k c : Nat} {path : List String} : cs[k]? = some c → g.Spelled tops c path →
    2 ≤ path.length → Called g tops cs (.link (g.entries.size + k)) (mangle path ++ "_t")

theorem Graph.Spelled.two_le_length (hf : Forest g tops)
    (h : g.Spelled tops c path) (hp : Reached g tops p) (hn : g.Nested p c) : 2 ≤ path.length := by
  cases h with
  | top hTop => exact absurd hTop (hf.not_top p c hp hn)
  | nested hPath =>
    have := List.length_pos_iff.2 hPath.ne_nil
    simp
    omega

theorem Graph.Spelled.exists_nested (h : g.Spelled tops c path)
    (hLength : 2 ≤ path.length) : ∃ p, Reached g tops p ∧ g.Nested p c := by
  cases h with
  | top => simp at hLength
  | nested hPath hn => exact ⟨_, hPath.reached, hn⟩

section Flattened

variable {h : Graph} {out : List Value} {new : List Nat}

theorem name_of_top (hf : NamedForest g tops) (hu : Unfolds g [] tops out new)
    (hNames : NamesLifted g tops g (g.liftedFrom new) h) {r : Nat} (hTop : .link r ∈ tops) :
    h.field? (.link r) "name" = g.field? (.link r) "name" := by
  refine hNames.old r (hf.valid r (.top hTop)) fun hmem => ?_
  obtain ⟨p, hp, hn⟩ := Lifts.nested_of_mem_liftedFrom hf.toForest
    (fun q hq => (hu.root hf.toForest (fun _ hv => hv) hq).1) hmem
  exact hf.not_top p r hp hn hTop

theorem called_of_mem (hf : NamedForest g tops) (hu : Unfolds g [] tops out new)
    (hNames : NamesLifted g tops g (g.liftedFrom new) h) (hx : x ∈ out) :
    ∃ name, h.field? x "name" = some (.text name) ∧ Called g tops (g.liftedFrom new) x name := by
  have hNested : ∀ c ∈ g.liftedFrom new, ∃ p, Reached g tops p ∧ g.Nested p c := fun c hc =>
    (hu.mem_liftedFrom hf.toForest fun r hr => (hu.root hf.toForest (fun _ hv => hv) hr).1).1 hc
  obtain hx | ⟨c, hc, rfl⟩ | ⟨k, -, hk, rfl⟩ := hu.mem hx
  · obtain ⟨r, -, rfl, -⟩ := form?_eq_of_isContainer g (hf.containers x hx)
    obtain ⟨name, hName⟩ := hf.texts r (.top hx)
    exact ⟨name, (name_of_top hf hu hNames hx).trans hName, .top hx hName⟩
  · obtain ⟨k, hk⟩ := List.getElem?_of_mem hc
    obtain ⟨path, hPath, hName, -⟩ := hNames.name k c hk
    obtain ⟨p, hp, hn⟩ := hNested c hc
    exact ⟨_, hName, .nested hc hPath (hPath.two_le_length hf.toForest hp hn)⟩
  · rw [List.nil_append] at hk
    have hGet := List.getElem?_eq_getElem hk
    obtain ⟨path, hPath, -, hName⟩ := hNames.name k _ hGet
    obtain ⟨p, hp, hn⟩ := hNested _ (List.mem_of_getElem? hGet)
    exact ⟨_, hName, .typedef hGet hPath (hPath.two_le_length hf.toForest hp hn)⟩

theorem eq_of_mangle_eq (hf : NamedForest g tops) (hClash : ¬ g.Clash tops) {p : List String}
    (hp : g.Spelled tops c p) (hpLength : 2 ≤ p.length) (hq : g.Spelled tops d q)
    (hqLength : 2 ≤ q.length)
    (h : mangle p = mangle q) : c = d := by
  have hBoth := (mangle_append_eq_iff (hf.isNesting hp hpLength) (hf.isNesting hq hqLength) "").1
    (by simpa using h)
  by_contra hne
  exact hClash ⟨c, d, p, q, hp, hq, hpLength, hBoth.1, .inl ⟨hne, by simpa using hBoth.2⟩⟩

theorem mangle_append_ne (hf : NamedForest g tops) (hClash : ¬ g.Clash tops) {p : List String}
    (hp : g.Spelled tops c p) (hpLength : 2 ≤ p.length) (hq : g.Spelled tops d q)
    (hqLength : 2 ≤ q.length) :
    mangle p ++ "_t" ≠ mangle q := by
  intro h
  have hBoth := (mangle_append_eq_iff (hf.isNesting hp hpLength) (hf.isNesting hq hqLength) "_t").1
    h
  exact hClash ⟨c, d, p, q, hp, hq, hpLength, hBoth.1, .inr hBoth.2⟩

/-- Without a clash a name is that of one declaration only. -/
theorem Called.eq (hf : NamedForest g tops) (hClash : ¬ g.Clash tops) {cs : List Nat}
    (hcs : cs.Nodup) {y : Value} {name : String} (hx : Called g tops cs x name)
    (hy : Called g tops cs y name) : x = y := by
  -- the names of toplevel containers do not begin as those of the others do
  have hTop : ∀ {r : Nat} {name : String}, .link r ∈ tops →
      g.field? (.link r) "name" = some (.text name) → isReserved name = true →
      False := fun hr hName hReserved => by
    rw [(hf.plain _ _ hr hName).2.1] at hReserved
    cases hReserved
  generalize hSame : name = name' at hy
  cases hx with
  | top hr hName =>
    cases hy with
    | top hr' hName' =>
      exact List.inj_on_of_nodup_map hf.distinct hr hr' (by rw [hName, hName', hSame])
    | nested _ _ hq => exact (hTop hr hName (hSame ▸ isReserved_mangle hq)).elim
    | typedef _ _ hq =>
      exact (hTop hr hName (hSame ▸ isReserved_append (isReserved_mangle hq) _)).elim
  | nested _ hp hpLength =>
    cases hy with
    | top hr hName => exact (hTop hr hName (hSame ▸ isReserved_mangle hpLength)).elim
    | nested _ hq hqLength => rw [eq_of_mangle_eq hf hClash hp hpLength hq hqLength hSame]
    | typedef _ hq hqLength =>
      exact absurd hSame.symm (mangle_append_ne hf hClash hq hqLength hp hpLength)
  | typedef hk hp hpLength =>
    cases hy with
    | top hr hName =>
      exact (hTop hr hName (hSame ▸ isReserved_append (isReserved_mangle hpLength) _)).elim
    | nested _ hq hqLength =>
      exact absurd hSame (mangle_append_ne hf hClash hp hpLength hq hqLength)
    | typedef hj hq hqLength =>
      obtain rfl := eq_of_mangle_eq hf hClash hp hpLength hq hqLength
        ((String.append_left_inj _).1 hSame)
      rw [(List.getElem?_inj (List.getElem?_eq_some_iff.1 hk).1 hcs).1 (hk.trans hj.symm)]

theorem mem_of_spelled (hf : NamedForest g tops) (hu : Unfolds g [] tops out new)
    (hl : Lifts g tops new h) (hNames : NamesLifted g tops g (g.liftedFrom new) h)
    (hPath : g.Spelled tops c path) (hLength : 2 ≤ path.length) :
    c < g.entries.size ∧ .link c ∈ out ∧ h.field? (.link c) "name" = some (.text (mangle path)) ∧
      ∃ t, g.entries.size ≤ t ∧ .link t ∈ out ∧
        h.field? (.link t) "name" = some (.text (mangle path ++ "_t")) := by
  obtain ⟨p, hp, hn⟩ := hPath.exists_nested hLength
  obtain ⟨t, hMade, -, before, after, rfl, -⟩ := hf.placed hu hl hp hn
  obtain ⟨k, hk, rfl⟩ := hl.of_madeFor hMade
  obtain ⟨path', hPath', hName, hTypedef⟩ := hNames.name k c hk
  obtain rfl := hPath.unique hf.toForest hPath'
  exact ⟨hf.valid c hPath.reached, by simp, hName, _, Nat.le_add_right _ _, by simp, hTypedef⟩

/-- **The names in the flattened list are different unless there is a clash.** -/
theorem nodup_names_iff (hf : NamedForest g tops) (hu : Unfolds g [] tops out new)
    (hl : Lifts g tops new h) (hNames : NamesLifted g tops g (g.liftedFrom new) h) :
    (out.map (h.field? · "name")).Nodup ↔ ¬ g.Clash tops := by
  have hOut : out.Nodup := hu.nodup_out hf (.of_map _ hf.distinct)
  have hNew : new.Nodup := by simpa using hu.nodup (by simp)
  have hLifted := hf.nodup_liftedFrom hNew hl.root
  rw [List.nodup_map_iff_inj_on hOut]
  constructor
  · rintro hInj ⟨c, d, p, q, hp, hq, hLength, hSame, hClash⟩
    have hqLength : 2 ≤ q.length := hSame ▸ hLength
    have hIff := mangle_append_eq_iff (hf.isNesting hp hLength) (hf.isNesting hq hqLength)
    obtain ⟨-, hc, hcName, t, ht, htMem, htName⟩ := mem_of_spelled hf hu hl hNames hp hLength
    obtain ⟨hd, hdMem, hdName, -⟩ := mem_of_spelled hf hu hl hNames hq hqLength
    obtain ⟨hne, hSpell⟩ | hSpell := hClash
    · have hMangle := (hIff "").2 ⟨hSame, by simpa using hSpell⟩
      refine hne (Value.link.inj (hInj _ hc _ hdMem ?_))
      rw [hcName, hdName, ← hMangle, String.append_empty]
    · have hMangle := (hIff "_t").2 ⟨hSame, hSpell⟩
      have hSameNode := Value.link.inj (hInj _ htMem _ hdMem (by rw [htName, hdName, hMangle]))
      omega
  · intro hClash x hx y hy hxy
    obtain ⟨name, hName, hCalled⟩ := called_of_mem hf hu hNames hx
    obtain ⟨name', hName', hCalled'⟩ := called_of_mem hf hu hNames hy
    obtain rfl :
      name = name' := Value.text.inj (Option.some.inj (hName.symm.trans (hxy.trans hName')))
    exact hCalled.eq hf hClash hLifted hCalled'

end Flattened

/-- **Flattened names clash only if paths read alike**: flattening gives every container the mangled
name of the path to it. The structs, unions and typedefs of the list have different names exactly if
no two nested containers of one depth have paths that read the same, and none reads like another
with `_t` behind it. -/
theorem flattened_names_distinct {s : Session} {tops : List Value} (hf : NamedForest s.graph tops) :
    ∃ out s', Gives (flatten (.list tops)) s (.list out) s' ∧
      (∀ v ∈ out, s'.graph.isContainer v = true ∨ s'.graph.hasForm v .typedef = true) ∧
      (∀ c, Reached s.graph tops c → ∃ path, s.graph.Spelled tops c path) ∧
      (∀ c path, s.graph.Spelled tops c path → .link c ∈ out ∧
        s'.graph.field? (.link c) "name" = some (.text (mangle path))) ∧
      ((out.map (s'.graph.field? · "name")).Nodup ↔ ¬ s.graph.Clash tops) := by
  obtain ⟨out, _, h, k, hGives, -, -⟩ := gives_flatten hf.toForest
  have h₁ := gives_after gives_steps hGives
  have h₂ := gives_after (gives_items (v := .list tops) rfl) h₁
  obtain ⟨outs, _, hAll, h₃⟩ := gives_bind.1 h₂
  obtain ⟨hOut, rfl⟩ := gives_pure.1 h₃
  obtain rfl := Value.list.inj hOut
  obtain ⟨new, hu, hl, hNames⟩ := names_flattenAll hf tops (fun _ hv => hv) (by omega)
    (Lifts.refl _ _) hAll
  refine ⟨_, _, hGives, ?_, fun c hc => hf.exists_spelled hc, ?_, nodup_names_iff hf hu hl hNames⟩
  · intro v hv
    have hFlattening := hf.flattening hu hl
    have hContainer : ∀ {c : Nat}, Reached _ tops c → h.isContainer (.link c) = true := fun hc => by
      obtain ⟨renamed, hp, -⟩ := hl.partly
      exact (hp.isContainer_eq _).trans (hf.isContainer hc)
    obtain hv | ⟨p, c, t, hp, hn, hMade, rfl | rfl⟩ := hFlattening.rest v hv
    · obtain ⟨r, -, rfl, -⟩ := form?_eq_of_isContainer _ (hf.containers v hv)
      exact .inl (hContainer (.top hv))
    · exact .inl (hContainer (.member hp hn))
    · exact .inr (by simpa [Graph.hasForm] using hMade.form)
  · intro c path hPath
    by_cases hLength : 2 ≤ path.length
    · obtain ⟨-, hMem, hName, -⟩ := mem_of_spelled hf hu hl hNames hPath hLength
      exact ⟨hMem, hName⟩
    · cases hPath with
      | top hTop hName =>
        exact ⟨hu.sublist.subset hTop, (name_of_top hf hu hNames hTop).trans hName⟩
      | nested hOuter =>
        have := List.length_pos_iff.2 hOuter.ne_nil
        rw [List.length_append, List.length_singleton] at hLength
        omega

/-- A union in a struct. -/
def oneDeep : Graph where
  origin := .unit
  entries := #[
    ⟨.struct, [("name", .text "A"), ("members", .list [.link 1]), ("context", .nothing)]⟩,
    ⟨.union, [("name", .text "B_1"), ("members", .list []), ("context", .nothing)]⟩]

theorem namedForest_oneDeep : NamedForest oneDeep [.link 0] where
  toForest := .of_ids [0, 1] (2 - ·) (by decide) (by decide) (by decide) (by decide)
  containers := List.forall_mem_singleton.2 rfl
  texts := fun c hc => by
    have hMem : c ∈ [0, 1] := hc.mem_ids (by decide) (by decide)
    obtain rfl | rfl : c = 0 ∨ c = 1 := by simpa using hMem
    all_goals exact ⟨_, rfl⟩
  distinct := by simp
  plain := fun r name hTop hName => by
    obtain rfl := Value.link.inj (List.mem_singleton.1 hTop)
    obtain rfl : "A" = name := Value.text.inj (Option.some.inj hName)
    decide

theorem flatten_oneDeep : NamedForest oneDeep [.link 0] ∧
    ∃ out s', Gives (flatten (.list [.link 0])) { graph := oneDeep } (.list out) s' ∧
      (∀ v ∈ out, s'.graph.isContainer v = true ∨ s'.graph.hasForm v .typedef = true) ∧
      (∀ c, Reached oneDeep [.link 0] c → ∃ path, oneDeep.Spelled [.link 0] c path) ∧
      (∀ c path, oneDeep.Spelled [.link 0] c path → .link c ∈ out ∧
        s'.graph.field? (.link c) "name" = some (.text (mangle path))) ∧
      ((out.map (s'.graph.field? · "name")).Nodup ↔ ¬ oneDeep.Clash [.link 0]) :=
  ⟨namedForest_oneDeep, flattened_names_distinct (s := { graph := oneDeep }) namedForest_oneDeep⟩

/-- A struct `A` with `B_C` in it, and a struct `A_B` with `C` in it. -/
def alikePaths : Graph where
  origin := .unit
  entries := #[
    ⟨.struct, [("name", .text "A"), ("members", .list [.link 1]), ("context", .nothing)]⟩,
    ⟨.struct, [("name", .text "B_C"), ("members", .list []), ("context", .nothing)]⟩,
    ⟨.struct, [("name", .text "A_B"), ("members", .list [.link 3]), ("context", .nothing)]⟩,
    ⟨.struct, [("name", .text "C"), ("members", .list []), ("context", .nothing)]⟩]

/-- What they are flattened to. -/
def alikeNames : Graph where
  origin := .unit
  entries := #[
    ⟨.struct, [("name", .text "A"), ("members", .list []), ("context", .nothing)]⟩,
    ⟨.struct, [("name", .text "__A_B_C"), ("members", .list []), ("context", .nothing)]⟩,
    ⟨.struct, [("name", .text "A_B"), ("members", .list []), ("context", .nothing)]⟩,
    ⟨.struct, [("name", .text "__A_B_C"), ("members", .list []), ("context", .nothing)]⟩,
    typedefEntry "__A_B_C_t" (.link 1) .nothing,
    typedefEntry "__A_B_C_t" (.link 3) .nothing]

theorem gives_flatten_alikePaths :
    Gives (flatten (.list [.link 0, .link 2])) { graph := alikePaths }
    (.list [.link 1, .link 4, .link 0, .link 3, .link 5, .link 2])
    { graph := alikeNames, console := "removed member __A_B_C\nremoved member __A_B_C\n" } := by
  rfl

/-- Both are called `__A_B_C` after they have been lifted, although the toplevel names are different
and no container has two others in it. -/
theorem flatten_alikePaths : ([Value.link 0, .link 2].map (alikePaths.field? · "name")).Nodup ∧
    (∀ v ∈ [Value.link 0, .link 2], ∃ name, alikePaths.field? v "name" = some (.text name) ∧
      name ≠ "" ∧ isReserved name = false) ∧
    (∀ p < alikePaths.entries.size, (alikePaths.nestedIds p).length ≤ 1) ∧
    ∃ out s', Gives (flatten (.list [.link 0, .link 2])) { graph := alikePaths } (.list out) s' ∧
      ¬ (out.map (s'.graph.field? · "name")).Nodup := by
  have hNames : [Value.link 1, .link 4, .link 0, .link 3, .link 5, .link 2].map
      (alikeNames.field? · "name") =
        [some (.text "__A_B_C"), some (.text "__A_B_C_t"), some (.text "A"), some (.text "__A_B_C"),
        some (.text "__A_B_C_t"), some (.text "A_B")] := rfl
  have hTops : [Value.link 0, .link 2].map (alikePaths.field? · "name") =
      [some (.text "A"), some (.text "A_B")] := rfl
  refine ⟨by rw [hTops]; simp, ?_, by decide, _, _, gives_flatten_alikePaths, by rw [hNames]; simp⟩
  simp only [List.forall_mem_cons]
  exact ⟨⟨_, rfl, by decide, by decide⟩, ⟨_, rfl, by decide, by decide⟩, by simp⟩

end PxdGen.Decl
