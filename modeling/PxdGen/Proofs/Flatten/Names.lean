import PxdGen.Proofs.Flatten.Flattening

/-! # Names that flattening gives

Flattening gives every nested container the mangled name of the path to it, and its typedef that
name with `_t` behind it. The structure of the graph at every step is known from `Partly`;
`NamesLifted` adds what the lifted containers and their typedefs are called, and that no other name
has changed.
-/

namespace PxdGen.Decl

open Work Decl.Graph

variable {s s' : Session} {r n : Nat} {roots : List Nat} {g : Graph} {tops : List Value}

/-! ### The toplevel containers -/

theorem Lifts.names (hf : NamedForest g tops)
    (hs : Lifts g tops roots s.graph) (hNames : NamesUnder g tops n r)
    (hTop : .link r ∈ tops) (hr : r ∉ roots) {items : List Value}
    (hGives : Gives (flattenContainer n (.link r)) s items s') :
    NamesLifted g tops s.graph (g.under r) s'.graph := by
  have hReached : Reached g tops r := .top hTop
  have hroot : g.Root tops r := hf.root_of_top hTop (.container (hf.containers _ hTop))
  obtain ⟨renamed, hp, hRenamed⟩ := hs.partly
  have hFlat : ∀ p ∈ g.underAll roots, Reached g tops p ∧ g.isContainer (.link p) = true := by
    intro p hpu
    obtain ⟨q, hq, hqp⟩ := (mem_underAll hf.toForest hs.root).1 hpu
    exact ⟨hqp.reached (hs.root q hq).reached, hqp.isContainer (hs.root q hq).container⟩
  have hApart : ∀ x, g.Below r x → x ∉ g.underAll roots := by
    intro x hx hmem
    obtain ⟨q, hq, hqx⟩ := (mem_underAll hf.toForest hs.root).1 hmem
    obtain rfl := hroot.eq_of_below hf.toForest (hs.root q hq) hx hqx
    exact hr hq
  have hFresh : ∀ x, g.Below r x → x ∉ renamed := by
    intro x hx hmem
    obtain ⟨q, hq, hqx⟩ := List.mem_flatMap.1 (hRenamed x hmem)
    exact hApart x hx (List.mem_flatMap.2 ⟨q, hq, by simp [hqx]⟩)
  obtain ⟨name, hName⟩ := hf.texts r hReached
  refine hNames _ _ _ s s' items [name] hp hFlat hApart (fun x hx => hFresh x ?_) (.top hTop hName)
    (hf.plain r name hTop hName).1 ?_ hGives
  · exact (hf.mem_tree hReached hroot.container).1 (List.mem_append_left _ hx)
  · exact (hp.old r (hf.valid r hReached) (hFresh r .refl) _ (.inl rfl)).trans hName

theorem Unfolds.root (hf : Forest g tops) {new : List Nat} {vs out : List Value}
    (h : Unfolds g roots vs out new) (hTops : ∀ v ∈ vs, v ∈ tops) (hr : r ∈ new) :
    g.Root tops r ∧ r ∉ roots := by
  obtain ⟨_, v, _, _, _, _, _, rfl, -, hLeads, hNot, -⟩ := h.split hr
  exact ⟨hf.root_of_top (hTops v (by simp)) hLeads, fun hmem => hNot (by simp [hmem])⟩

theorem names_flattenAll (hf : NamedForest g tops) (vs : List Value)
    (hvs : ∀ v ∈ vs, v ∈ tops) (hn : g.entries.size < n)
    {outs : List (List Value)} (hs : Lifts g tops roots s.graph)
    (hGives : Gives (vs.mapM (flattenOne n)) s outs s') :
    ∃ new, Unfolds g roots vs outs.flatten new ∧ Lifts g tops (roots ++ new) s'.graph ∧
      NamesLifted g tops s.graph (g.liftedFrom new) s'.graph := by
  obtain ⟨level, hle, hpos, hl, hlt⟩ := hf.levels
  induction vs generalizing roots s outs with
  | nil =>
    obtain ⟨rfl, rfl⟩ := gives_mapM_nil.1 hGives
    exact ⟨[], .nil, by rwa [List.append_nil], .refl g tops _⟩
  | cons v vs ih =>
    have hTop := hvs v (List.mem_cons_self ..)
    have hRestTops : ∀ w ∈ vs, w ∈ tops := fun w hw => hvs w (List.mem_cons_of_mem _ hw)
    obtain ⟨out, t, outs, hFirst, hRest, rfl⟩ := gives_mapM_cons.1 hGives
    have hStep := flattenOne_step hf.toForest hpos hl hlt hs n v (by
        rintro id rfl
        exact ⟨.top hTop, fun q hq hqn => hf.not_top q id hq hqn hTop⟩)
      (fun id _ => Nat.lt_of_le_of_lt (hle id) hn) (by omega)
    cases hStep with
    | keep hr hKeep =>
      obtain ⟨rfl, rfl⟩ := hFirst.unique hKeep
      obtain ⟨new, hUnfolds, hLifts, hNames⟩ := ih hRestTops hs hRest
      exact ⟨new, .keep hr hUnfolds, hLifts, hNames⟩
    | @lift r h k hr hNew hLift hLifts =>
      obtain ⟨rfl, rfl⟩ := hFirst.unique hLift
      obtain ⟨new, hUnfolds, hLifts', hNames⟩ := ih hRestTops hLifts hRest
      have hc := hf.containers v hTop
      obtain ⟨r', -, rfl, -⟩ := form?_eq_of_isContainer g hc
      obtain rfl := hr.eq_of_isContainer hc
      refine ⟨r' :: new, ?_, by rwa [List.append_assoc] at hLifts', ?_⟩
      · rw [List.flatten_cons, List.append_assoc]
        exact .lift hr hNew hUnfolds
      obtain ⟨renamed, hp, -⟩ := hs.partly
      obtain ⟨m, rfl⟩ : ∃ m, n = m + 1 := ⟨n - 1, by omega⟩
      have hRun := gives_after (gives_isContainer _) hFirst
      rw [hp.isContainer_eq, if_pos hc] at hRun
      have hReached : Reached g tops r' := .top hTop
      have hTree := hs.names hf ((flattensUnder hf.toForest hpos hl m r' hReached hc (by
        have := hle r'
        omega)).2 hf) hTop hNew hRun
      have hBelow : ∀ x ∈ g.under r', g.Below r' x := fun x hx =>
        (hf.mem_tree hReached hc).1 (List.mem_append_left _ hx)
      have hBelowNew : ∀ x ∈ g.liftedFrom new, ∃ q, q ≠ r' ∧ g.Root tops q ∧ g.Below q x := by
        intro x hx
        obtain ⟨q, hq, hqx⟩ := List.mem_flatMap.1 hx
        obtain ⟨hroot, hqNot⟩ := hUnfolds.root hf.toForest hRestTops hq
        refine ⟨q, fun e => hqNot (by simp [e]), hroot, ?_⟩
        exact (hf.mem_tree hroot.reached hroot.container).1 (List.mem_append_left _ hqx)
      rw [liftedFrom_cons]
      refine hTree.trans hNames (fun x hx => hp.lt_size ?_) fun x hx hmem => ?_
      · obtain hx | hx := List.mem_append.1 hx
        · exact hf.valid x ((hBelow x hx).reached hReached)
        · obtain ⟨q, -, hroot, hqx⟩ := hBelowNew x hx
          exact hf.valid x (hqx.reached hroot.reached)
      · obtain ⟨q, hne, hroot, hqx⟩ := hBelowNew x hmem
        exact hne (hroot.eq_of_below hf.toForest (hf.root_of_top hTop (.container hc)) hqx
          (hBelow x hx))

end PxdGen.Decl
