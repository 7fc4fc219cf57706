import PxdGen.Proofs.Render.Module
/-! # Expressions that can be drawn

There is no rule for every kind of node that can be part of an expression: none for the exclusive or
of bits, and none for the marks of C types, which are peeled off only where a type is expected. What
has no rule is mentioned on the console, and a placeholder is put for it. Where everything that
comes to be rendered has a rule, there is no placeholder in the text, unless it is in a string of
the tree or comes about where the hole of a function type is filled.
-/

namespace PxdGen.Pxd

open Rendering Value

theorem gives_renderField {kind : Kind} {fields : List (String × Value)} {name : String}
    {x a : Value} {s s' : Sheet} (hx : fields.lookup name = some x) (h : Gives (render x) s a s') :
    Gives (renderField (.node kind fields) (fun p => render p.1) name) s a s' := by
  obtain ⟨p, hp, rfl⟩ := field?_of_lookup kind hx
  have hNeed : Gives (need (.node kind fields) name) s p s := by
    rw [need, hp]
    exact .pure p s
  exact hNeed.bind h

/-- The exclusive or of two expressions, bit by bit. -/
def exclusiveOr (v w : Value) : Value :=
  .node .binOp [("left", v), ("op", single .bitXor), ("right", w)]

/-- **An expression is rendered without the placeholder if there is a rule for all that comes to be
rendered**, no string in it has the placeholder, and none in a function type has a brace. But there
is no rule for the exclusive or of bits: between this expression and any other the placeholder is
put for it. -/
theorem render_of_drawn {v : Value} (h : Made v) (hm : isModest v = true) (hd : Drawn v)
    (hText : ∀ t, Contains (.text t) v → ¬ placeholder.toList <:+: t.toList)
    (hBrace : ∀ w, Contains w v → w.isNode .cFunctionType = true → NoBrace w)
    {s : Sheet} (hs : s.pending = []) :
    ∃ t s', Gives (render v) s (.text t) s' ∧ ¬ placeholder.toList <:+: t.toList ∧
      ∀ w, Made w → isModest w = true → ∃ u s'', Gives (render (exclusiveOr v w)) s
        (.text ("(" ++ t ++ " " ++ placeholder ++ " " ++ u ++ ")")) s'' := by
  have hTame : Tame false v := ⟨hd, hText, hBrace, fun h => by cases h⟩
  obtain ⟨_, s', hGives, ⟨t, rfl, hNeat⟩, -⟩ :=
    (h.sound hm).renders (q := True) (fun _ => hTame) s fun _ => hs
  refine ⟨t, s', hGives, (hNeat trivial).clear, fun w hMade hModest => ?_⟩
  let said := "No renderer for node: `" ++ (single .bitXor).plain ++ "`"
  have hOp : Gives (render (single .bitXor)) s' (.text placeholder)
      { s' with console := s'.console ++ said ++ "\n" } := by
    rw [render]
    exact Gives.bind (a := ()) (gives_modify.2 rfl) (.pure _ _)
  obtain ⟨_, s'', hRight, ⟨u, rfl, -⟩, -⟩ :=
    (hMade.sound hModest).renders (q := False) (b := false) False.elim
      { s' with console := s'.console ++ said ++ "\n" } False.elim
  refine ⟨u, s'', ?_⟩
  rw [render]
  exact (gives_renderField rfl hGives).bind ((gives_renderField rfl hOp).bind
    ((gives_renderField rfl hRight).bind (.pure _ _)))

/-- A name that lacks the first letter of the placeholder. -/
def nearly : Value := .node .name [("id", .text "_UNDEFINED__"), ("ctx", single .load)]

theorem render_nearly_of_drawn :
    Made nearly ∧ isModest nearly = true ∧ Drawn nearly ∧
      (∀ t, Contains (.text t) nearly → ¬ placeholder.toList <:+: t.toList) ∧
      (∀ w, Contains w nearly → w.isNode .cFunctionType = true → NoBrace w) ∧
      ∃ u s', Gives (render (exclusiveOr nearly nearly)) {}
        (.text ("(" ++ "_UNDEFINED__" ++ " " ++ placeholder ++ " " ++ u ++ ")")) s' := by
  have hMade : Made nearly := made_name _ (.single rfl) rfl
  have hDrawn : Drawn nearly := by
    refine .node (show Kind.rule? .name = some {} from rfl) ?_ ?_ ?_ ?_ <;> simp
  have hContains : ∀ w, Contains w nearly →
      w = .text "_UNDEFINED__" ∨ w.isNode .cFunctionType = false ∧ w.kind?.isSome = true := by
    intro w hw
    cases hw with
    | self => exact .inr ⟨rfl, rfl⟩
    | part hx hc hw =>
      simp only [List.map, List.mem_cons, List.not_mem_nil, or_false] at hx
      rcases hx with rfl | rfl
      · cases hc
        cases hw
        exact .inl rfl
      · cases hc
        cases hw with
        | self => exact .inr ⟨rfl, rfl⟩
        | part hx => cases hx
  have hText : ∀ t, Contains (.text t) nearly → ¬ placeholder.toList <:+: t.toList := by
    intro t ht
    obtain rfl : t = "_UNDEFINED__" := by simpa [kind?] using hContains _ ht
    exact fun hp => absurd hp.length_le (by decide)
  have hBrace : ∀ w, Contains w nearly → w.isNode .cFunctionType = true → NoBrace w := by
    intro w hw hNode
    rcases hContains w hw with rfl | ⟨hNot, -⟩
    · cases hNode
    · cases hNot.symm.trans hNode
  obtain ⟨t, s', hGives, -, hOr⟩ := render_of_drawn hMade rfl hDrawn hText hBrace (s := {}) rfl
  have hName : Gives (render nearly) {} (.text "_UNDEFINED__") {} := by
    rw [render]
    rfl
  obtain ⟨hx, -⟩ := hGives.unique hName
  obtain rfl : t = "_UNDEFINED__" := by simpa using hx
  exact ⟨hMade, rfl, hDrawn, hText, hBrace, hOr _ hMade rfl⟩

end PxdGen.Pxd
