import PxdGen.Proofs.Render.Clear
import PxdGen.Proofs.Run
/-! # Made expressions are rendered

Rendering anything that is not written on the page itself ends with a text, and leaves the page
alone. Only those rules have to be looked at that need more than a text from a part: a name needs a
text in its field, an array a size that can be written, and arguments a list of defaults. Where all
that comes to be rendered has a rule and no words are pending, the placeholder is in the text only
if it is in a string of the tree. This is shown along with the rest, under the assumption `q` that
it is so.
-/

namespace PxdGen.Pxd

open Rendering Value

variable {α β : Type} {q : Prop} {b : Bool}

/-! ### Work that leaves the page alone -/

/-- The work ends with something that has the property, and leaves the page as it is, where no words
are pending if `q`, and then leaves none. -/
def EndsIf (q : Prop) (x : Rendering α) (P : α → Prop) : Prop :=
  ∀ s, (q → s.pending = []) →
    ∃ a s', Gives x s a s' ∧ P a ∧ s'.page = s.page ∧ (q → s'.pending = [])

/-- The work ends with something that has the property, and leaves the page as it is. -/
abbrev Ends (x : Rendering α) (P : α → Prop) : Prop := EndsIf False x P

variable {v w : Value} {x : Rendering α} {f : α → Rendering β}

namespace EndsIf

variable {P : α → Prop} {Q : β → Prop}

theorem pure {a : α} (h : P a) :
    EndsIf q (Pure.pure a) P := fun s hs => ⟨a, s, .pure a s, h, rfl, hs⟩

theorem bind (hx : EndsIf q x P) (hf : ∀ a, P a → EndsIf q (f a) Q) : EndsIf q (x >>= f) Q := by
  intro s hs
  obtain ⟨a, s', hx, ha, hp, hs⟩ := hx s hs
  obtain ⟨b, s'', hf, hb, hq, hs⟩ := hf a ha s' hs
  exact ⟨b, s'', hx.bind hf, hb, hq.trans hp, hs⟩

theorem mono {P' : α → Prop} (hx : EndsIf q x P) (h : ∀ a, P a → P' a) : EndsIf q x P' := by
  intro s hs
  obtain ⟨a, s', hx, ha, hp⟩ := hx s hs
  exact ⟨a, s', hx, h a ha, hp⟩

theorem mapM (as : List α) (h : ∀ a ∈ as, EndsIf q (f a) Q) :
    EndsIf q (as.mapM f) fun bs => ∀ b ∈ bs, Q b := by
  induction as with
  | nil => exact fun s hs => ⟨[], s, gives_mapM_nil.2 ⟨rfl, rfl⟩, by simp, rfl, hs⟩
  | cons a as ih =>
    intro s hs
    obtain ⟨b, t, hb, hQ, hp, hs⟩ := h a (by simp) s hs
    obtain ⟨bs, s', hbs, hQs, hq, hs⟩ := ih (fun a ha => h a (by simp [ha])) t hs
    refine ⟨b :: bs, s', gives_mapM_cons.2 ⟨b, t, bs, hb, hbs, rfl⟩, ?_, hq.trans hp, hs⟩
    simpa using ⟨hQ, hQs⟩

end EndsIf

theorem ends_say (line : String) : EndsIf q (say line) fun _ => True :=
  fun _ hs => ⟨(), _, rfl, trivial, rfl, hs⟩

theorem ends_popPending : EndsIf q popPending fun v => q → v = none := by
  intro s hs
  cases hPending : s.pending with
  | nil =>
    refine ⟨none, s, Gives.get ?_, fun _ => rfl, rfl, hs⟩
    rw [hPending]
    exact .pure _ s
  | cons v rest =>
    have hq : ¬ q := fun h => by cases hPending.symm.trans (hs h)
    refine ⟨some v, { s with pending := rest }, Gives.get ?_, fun h => absurd h hq, rfl,
      fun h => absurd h hq⟩
    rw [hPending]
    exact Gives.bind (a := ()) (gives_modify.2 rfl) (.pure _ _)

theorem ends_popLead : EndsIf q popLead fun lead => q → lead = "" := by
  refine ends_popPending.bind fun v hv => ?_
  cases v with
  | none => exact .pure fun _ => rfl
  | some v => exact .pure fun h => by cases hv h

/-- A text that is neat if `q`. -/
def Fits (q : Prop) (b : Bool) (v : Value) : Prop := ∃ t, v = .text t ∧ (q → Neat b t.toList)

theorem fits {t : String} (h : q → Neat b t.toList) : Fits q b (.text t) := ⟨t, rfl, h⟩

theorem Fits.neat (h : Fits q b v) (hq : q) : Neat b v.plain.toList := by
  obtain ⟨t, rfl, ht⟩ := h
  exact ht hq

abbrev IsText (v : Value) : Prop := Fits False false v

theorem isText (t : String) : IsText (.text t) := fits False.elim

theorem isText_of_admits (h : Want.text.admits v = true) : IsText v := by
  obtain ⟨t, rfl⟩ := exists_text_of_admits h
  exact isText t

theorem ends_textOf (h : Fits q b v) : EndsIf q (textOf v) fun t => q → Neat b t.toList := by
  obtain ⟨t, rfl, ht⟩ := h
  exact .pure ht

theorem endsIf_joined {separator : String} (hs : q → Separates b separator) {vs : List Value}
    (h : ∀ v ∈ vs, Fits q b v) :
    EndsIf q (joined separator vs) fun t => q → Neat b t.toList :=
  (EndsIf.mapM vs fun v hv => ends_textOf (h v hv)).bind fun _ ht =>
    .pure fun hq => neat_intercalate (hs hq) fun t hm => ht t hm hq

theorem ends_joined (separator : String) {vs : List Value} (h : ∀ v ∈ vs, IsText v) :
    Ends (joined separator vs) fun _ => True :=
  (endsIf_joined False.elim h).mono fun _ _ => trivial

/-- Whatever is no node is mentioned on the console. -/
theorem ends_render_of_kind?_none (h : v.kind? = none) (hq : q → Tame b v) :
    EndsIf q (render v) (Fits q b) := by
  rw [render]
  unfold renderStep
  rw [h]
  refine (ends_say _).bind fun _ _ => .pure (fits fun hq' => ?_)
  cases (hq hq').drawn
  cases h

/-! ### Parts -/

/-- What is under the marks of a C type is rendered. -/
structure Under (v : Value) (marks : List String) (base : Value) : Prop where
  renders : ∀ {q b}, (q → Tame b base) → EndsIf q (render base) (Fits q b)
  marks : ∀ m ∈ marks, IsMark m
  inside : Contains base v

/-- A value that is rendered, as is the type under its marks if it is a C type. -/
structure Sound (v : Value) : Prop where
  renders : ∀ {q b}, (q → Tame b v) → EndsIf q (render v) (Fits q b)
  levels : ∃ marks base, peelLevels v = .ok (marks, base) ∧ Under v marks base.1
  peels : ∃ marks base, peel v = .ok (marks, base) ∧ Under v marks base.1

theorem peel_of_not_reference (h : v.isNode .reference = false)
    (hl : ∃ marks base, peelLevels v = .ok (marks, base) ∧ Under v marks base.1) :
    ∃ marks base, peel v = .ok (marks, base) ∧ Under v marks base.1 := by
  obtain ⟨marks, base, hl, hb⟩ := hl
  exact ⟨_, base, by rw [peel, h, hl]; rfl, hb.renders, isMark_parenthesize hb.marks, hb.inside⟩

theorem sound_of_kind?_none (h : v.kind? = none) : Sound v := by
  have hLevels : ∃ marks base, peelLevels v = .ok (marks, base) ∧ Under v marks base.1 :=
    ⟨[], .self v, peelLevels_of_kind (by simp [h]) (by simp [h]), ends_render_of_kind?_none h,
      by simp, .self⟩
  exact ⟨ends_render_of_kind?_none h, hLevels, peel_of_not_reference (by simp [isNode, h]) hLevels⟩

theorem Kind.lists_subset_names {kind : Kind} : kind.lists ⊆ kind.names := by
  cases kind with
  | member family => cases family <;> decide
  | _ => decide

/-- A node whose fields have been checked and whose parts are sound. -/
structure Ready (kind : Kind) (fields : List (String × Value)) : Prop extends Checked kind
    fields where
  lists : ∀ name ∈ kind.lists, ∃ ws, fieldOf fields name = .list ws
  parts : ∀ x ∈ fields.map (·.2), ∀ w, Carries x w → Sound w

namespace Ready

variable {kind : Kind} {fields : List (String × Value)} (hr : Ready kind fields) {name : String}

include hr

theorem need (h : name ∈ kind.names := by decide) :
    EndsIf q (Rendering.need (.node kind fields) name) fun p => p.1 = fieldOf fields name := by
  obtain ⟨x, hx, rfl, -⟩ := lookup_of_mem_names hr.toChecked h
  obtain ⟨p, hp, hpx⟩ := field?_of_lookup kind hx
  unfold Rendering.need
  rw [hp]
  exact .pure hpx

theorem part (h : name ∈ kind.names) (hw : Carries (fieldOf fields name) w) : Sound w := by
  obtain ⟨x, -, rfl, hmem⟩ := lookup_of_mem_names hr.toChecked h
  exact hr.parts _ hmem w hw

theorem sound (h : name ∈ kind.names) (hw : w = fieldOf fields name) : Sound w := by
  rw [hw]
  exact hr.part h (.self _)

theorem contains (h : name ∈ kind.names) (hw : Carries (fieldOf fields name) w) :
    Contains w (.node kind fields) := by
  obtain ⟨x, -, rfl, hmem⟩ := lookup_of_mem_names hr.toChecked h
  exact .part hmem hw .self

theorem renderField (h : name ∈ kind.names := by decide)
    (t : q → Tame b (fieldOf fields name) := by exact False.elim) :
    EndsIf q (Pxd.renderField (.node kind fields) (fun p => render p.1) name) (Fits q b) :=
  (hr.need h).bind fun _ hp => (hr.sound h hp).renders (hp ▸ t)

theorem items (hl : name ∈ kind.lists) {p : Part (.node kind fields)}
    (hp : p.1 = fieldOf fields name) :
    EndsIf q (Rendering.items p) fun ps => fieldOf fields name = .list (ps.map (·.1)) := by
  obtain ⟨ws, hws⟩ := hr.lists name hl
  obtain ⟨v, hv⟩ := p
  obtain rfl : v = .list ws := hp.trans hws
  rw [hws]
  exact .pure (by simp)

theorem renderItems (hl : name ∈ kind.lists := by decide)
    (t : q → ∀ ws, fieldOf fields name = .list ws → ∀ w ∈ ws, Tame b w := by exact False.elim) :
    EndsIf q (Pxd.renderItems (.node kind fields) (fun p => render p.1) name) fun vs =>
      ∀ v ∈ vs, Fits q b v := by
  have h := Kind.lists_subset_names hl
  refine (hr.need h).bind fun p hp => (hr.items hl hp).bind fun ps hps => ?_
  refine EndsIf.mapM ps fun r hr' => (hr.part h ?_).renders fun hq => t hq _ hps _ ?_
  · rw [hps]
    exact .item (List.mem_map.2 ⟨r, hr', rfl⟩)
  · exact List.mem_map.2 ⟨r, hr', rfl⟩

theorem renderGiven (h : name ∈ kind.names := by decide)
    (t : q → (fieldOf fields name).isTrue = true → Tame b (fieldOf fields name) := by
      exact False.elim) :
    EndsIf q (Pxd.renderGiven (.node kind fields) (fun p => render p.1) name) fun v =>
      v.isTrue = true → Fits q b v := by
  refine (hr.need h).bind fun p hp => ?_
  split
  · rename_i hTrue
    exact ((hr.sound h hp).renders fun hq => hp ▸ t hq (hp ▸ hTrue)).mono fun _ ht _ => ht
  · exact .pure fun h => by cases h

theorem renderStarred {mark : String} (hm : ∀ x, Neat b x → Neat b (mark.toList ++ x))
    (h : name ∈ kind.names)
    (t : q → (fieldOf fields name).isTrue = true → Tame b (fieldOf fields name)) :
    EndsIf q (Pxd.renderStarred (.node kind fields) (fun p => render p.1) mark name) fun vs =>
      ∀ v ∈ vs, Fits q b v := by
  refine (hr.need h).bind fun p hp => ?_
  split
  · rename_i hTrue
    refine ((hr.sound h hp).renders fun hq => hp ▸ t hq (hp ▸ hTrue)).bind fun v hv => ?_
    refine (ends_textOf hv).bind fun u hu => .pure (List.forall_mem_singleton.2 (fits fun hq => ?_))
    simpa using hm _ (hu hq)
  · exact .pure (by simp)

/-- The marks of a C type are peeled off, and what is under them is rendered. -/
theorem peelField (h : name ∈ kind.names := by decide)
    (t : q → ∀ marks base, peel (fieldOf fields name) = .ok (marks, base) → Drawn base.1 := by
      exact False.elim) :
    EndsIf q (Pxd.peelField (.node kind fields) name) fun r =>
      Under (.node kind fields) r.1 r.2.1 ∧ (q → Drawn r.2.1) := by
  refine (hr.need h).bind fun p hp => ?_
  obtain ⟨v, hv⟩ := p
  obtain rfl : v = fieldOf fields name := hp
  obtain ⟨marks, base, hPeel, hb⟩ := (hr.sound h rfl).peels
  rw [hPeel]
  exact .pure ⟨⟨hb.renders, hb.marks, hb.inside.trans (hr.contains h (.self _))⟩,
    fun hq => t hq _ _ hPeel⟩

/-! What is known of the parts that the rule for the kind renders. -/

variable (hq : q → Tame b (.node kind fields))

include hq

theorem field (h : name ∈ kind.names := by decide)
    (hn : kind.rule?.any (·.fields.contains name) = true := by rfl) :
    q → Tame b (fieldOf fields name) := by
  intro h'
  refine (hq h').part (hr.contains h (.self _)) ?_
  cases (hq h').drawn with
  | node hRule hField =>
    rw [hRule] at hn
    exact hField name (by simpa using hn)

theorem given (h : name ∈ kind.names := by decide)
    (hn : kind.rule?.any (·.given.contains name) = true := by rfl) :
    q → (fieldOf fields name).isTrue = true → Tame b (fieldOf fields name) := by
  intro h' hTrue
  refine (hq h').part (hr.contains h (.self _)) ?_
  cases (hq h').drawn with
  | node hRule _ hGiven =>
    rw [hRule] at hn
    exact hGiven name (by simpa using hn) hTrue

theorem each (h : name ∈ kind.names := by decide)
    (hn : kind.rule?.any (·.items.contains name) = true := by rfl) :
    q → ∀ ws, fieldOf fields name = .list ws → ∀ w ∈ ws, Tame b w := by
  intro h' ws hws w hw
  refine (hq h').part (hr.contains h (hws ▸ .item hw)) ?_
  cases (hq h').drawn with
  | node hRule _ _ hItem =>
    rw [hRule] at hn
    exact hItem name (by simpa using hn) ws (by rw [hws]; rfl) w hw

omit hr in
theorem under (hn : kind.rule?.any (·.types.contains name) = true := by rfl) :
    q → ∀ marks base, peel (fieldOf fields name) = .ok (marks, base) → Drawn base.1 := by
  intro h'
  cases (hq h').drawn with
  | node hRule _ _ _ hType =>
    rw [hRule] at hn
    exact hType name (by simpa using hn)

theorem text (h : .field name (.one .text words) ∈ kind.signature.checks) (hn : name ∈ kind.names) :
    Fits q b (fieldOf fields name) := by
  obtain ⟨t, ht⟩ := exists_text_of_admits (hr.admits h)
  exact ⟨t, ht, fun h' => (hq h').neat (hr.contains hn (ht ▸ .self _))⟩

end Ready

theorem Under.tame {marks : List String} {base : Value} (hb : Under v marks base) (hd : Drawn base)
    (h : Tame b v) : Tame (b || base.isNode .cFunctionType) base where
  drawn := hd
  clear := (h.part hb.inside hd).clear
  inner := (h.part hb.inside hd).inner
  outer hOr := (Bool.or_eq_true _ _ ▸ hOr).elim (h.part hb.inside hd).outer (h.inner _ hb.inside)

theorem ends_declare {base type declarator : Value}
    (ht : Fits q (b || base.isNode .cFunctionType) type) (hd : Fits q b declarator) :
    EndsIf q (declare base type declarator) fun t => q → Neat b t.toList := by
  unfold declare
  split
  · rename_i hf
    rw [hf, Bool.or_true] at ht
    exact (ends_textOf ht).bind fun _ h => (ends_textOf hd).bind fun _ h' =>
      .pure fun hq => neat_fillName (h hq) (h' hq)
  · rename_i hf
    rw [Bool.eq_false_iff.2 hf, Bool.or_false] at ht
    exact .pure fun hq => by
      simp (disch := decide) [neat_append_cons, ht.neat hq, hd.neat hq]

theorem fits_declarator {marks : List String} (hm : ∀ m ∈ marks, IsMark m) {name : Value}
    (h : Fits q b name) : Fits q b (declarator marks name) := by
  unfold declarator
  split
  · exact h
  · exact fits fun hq => neat_wrap hm (h.neat hq)

theorem fits_sliceItems {lower upper step : Value} (hl : lower.isTrue = true → Fits q b lower)
    (hu : upper.isTrue = true → Fits q b upper) (hs : step.isTrue = true → Fits q b step) :
    ∀ v ∈ sliceItems lower upper step, Fits q b v := by
  have hBlank : Fits q b (.text "") := fits fun _ => by simpa using Neat.nil
  unfold sliceItems
  cases h : lower.isTrue <;> cases h' : upper.isTrue <;> cases h'' : step.isTrue <;> simp_all

/-! ### The rules -/

section Rules

variable {kind : Kind} {fields : List (String × Value)}

theorem Ready.renderCName (hr : Ready .cName fields) (hq : q → Tame b (.node .cName fields)) :
    EndsIf q (Pxd.renderCName (.node .cName fields) fun p => render p.1) (Fits q b) := by
  refine ends_popLead.bind fun lead hLead => (hr.peelField (t := under hq)).bind fun r hb => ?_
  refine hr.need.bind fun p hp => ?_
  refine (hb.1.renders fun h => hb.1.tame (hb.2 h) (hq h)).bind fun type ht => ?_
  have hName : Fits q b p.1 := hp ▸ hr.text hq (.tail _ (.head _)) (by decide)
  refine (ends_declare ht (fits_declarator hb.1.marks hName)).bind fun t ht =>
    .pure (fits fun h => ?_)
  rw [hLead h, String.empty_append]
  exact (ht h).of_part (infix_trim t)

theorem Ready.renderFunctionType (hr : Ready .cFunctionType fields)
    (hq : q → Tame b (.node .cFunctionType fields)) :
    EndsIf q (Pxd.renderFunctionType (.node .cFunctionType fields) fun p => render p.1)
        (Fits q b) := by
  refine (hr.renderField (t := hr.field hq)).bind fun args ha => ?_
  refine (hr.peelField (t := under hq)).bind fun r hb => ?_
  refine (hb.1.renders fun h => hb.1.tame (hb.2 h) (hq h)).bind fun type ht => ?_
  refine (ends_declare ht (fits fun h => neat_wrap hb.1.marks ?_)).bind fun _ ht => .pure (fits ht)
  simp (disch := decide) [neat_append_cons, neat_cons, Neat.nil, neat_nameHole, ha.neat h]

theorem Ready.renderCall (hr : Ready .call fields) (hq : q → Tame b (.node .call fields)) :
    EndsIf q (Pxd.renderCall (.node .call fields) fun p => render p.1) (Fits q b) := by
  refine (hr.renderField (t := hr.field hq)).bind fun func hf => ?_
  refine (hr.renderItems (t := hr.each hq)).bind fun args ha => ?_
  refine (hr.renderItems (t := hr.each hq)).bind fun keywords hk => ?_
  refine (hr.renderStarred (fun x hx => by simpa (disch := decide) [neat_cons] using hx) (by decide)
    (hr.given hq)).bind fun starargs hs => ?_
  refine (hr.renderStarred (fun x hx => by simpa (disch := decide) [neat_cons] using hx) (by decide)
    (hr.given hq)).bind fun kwargs hw => ?_
  refine (endsIf_joined (b := b) (fun _ => separates_comma) ?_).bind fun t ht =>
    .pure (fits fun h => ?_)
  · simp only [List.forall_mem_append]
    exact ⟨⟨⟨ha, hk⟩, hs⟩, hw⟩
  · simp (disch := decide) [neat_append_cons, Neat.nil, hf.neat h, ht h]

theorem Ready.renderArguments (hr : Ready .arguments fields)
    (hq : q → Tame b (.node .arguments fields)) :
    EndsIf q (Pxd.renderArguments (.node .arguments fields) fun p => render p.1) (Fits q b) := by
  refine hr.need.bind fun args hArgs => hr.need.bind fun defaults hDefaults => ?_
  refine (hr.items (by decide) hArgs).bind fun count hCount => ?_
  refine (hr.items (by decide) hDefaults).bind fun given hGiven => ?_
  rw [hGiven] at hDefaults
  have hItem : ∀ {name} {ps : List (Part (.node .arguments fields))}, name ∈ Kind.arguments.names →
      Kind.arguments.rule?.any (·.items.contains name) = true →
      fieldOf fields name = .list (ps.map (·.1)) →
      ∀ p ∈ ps, EndsIf q (render p.1) (Fits q b) := by
    intro name ps hName hn hps p hp
    have hMem : p.1 ∈ ps.map (·.1) := List.mem_map.2 ⟨p, hp, rfl⟩
    exact (hr.part hName (hps ▸ .item hMem)).renders fun h => hr.each hq hName hn h _ hps _ hMem
  rw [hDefaults]
  refine (EndsIf.mapM (Q := Fits q b) (count.zip _) ?_).bind fun shown hs => ?_
  · rintro ⟨arg, default⟩ hp
    refine (hItem (by decide) rfl hCount arg (List.of_mem_zip hp).1).bind fun a ha => ?_
    cases default with
    | none => exact .pure ha
    | some d =>
      have hd : d ∈ given := by simpa using (List.of_mem_zip hp).2
      refine (hItem (by decide) rfl hGiven d hd).bind fun e he => .pure (fits fun h => ?_)
      simp (disch := decide) [neat_append_cons, ha.neat h, he.neat h]
  refine (hr.renderStarred (fun x hx => by simpa (disch := decide) [neat_cons] using hx) (by decide)
    (hr.given hq)).bind fun vararg hv => ?_
  refine (hr.renderStarred (fun x hx => by simpa (disch := decide) [neat_cons] using hx) (by decide)
    (hr.given hq)).bind fun kwarg hk => ?_
  refine (endsIf_joined (fun _ => separates_comma) ?_).bind fun _ ht => .pure (fits ht)
  simp only [List.forall_mem_append]
  exact ⟨⟨hs, hv⟩, hk⟩

/-- **A checked node whose parts are rendered is rendered.** -/
theorem Ready.renders (hr : Ready kind fields) (hn : ∀ x ∈ fields.map (·.2), x.isWritable = true)
    (hq : q → Tame b (.node kind fields)) : EndsIf q (render (.node kind fields)) (Fits q b) := by
  rw [render]
  cases kind with
  | boolOp =>
    refine (hr.renderField (t := hr.field hq)).bind fun op ho => ?_
    refine (hr.renderItems (t := hr.each hq)).bind fun values hv => ?_
    refine (endsIf_joined (fun h x y hx hy => ?_) hv).bind fun t ht => .pure (fits fun h => ?_)
    · simp (disch := decide) [neat_append_cons, hx, hy, ho.neat h]
    · simp (disch := decide) [neat_append_cons, neat_cons, Neat.nil, ht h]
  | binOp | ifExp =>
    refine (hr.renderField (t := hr.field hq)).bind fun _ hx => ?_
    refine (hr.renderField (t := hr.field hq)).bind fun _ hy => ?_
    refine (hr.renderField (t := hr.field hq)).bind fun _ hz => .pure (fits fun h => ?_)
    simp (disch := decide) [neat_append_cons, neat_cons, Neat.nil, hx.neat h, hy.neat h, hz.neat h]
  | unaryOp | lambdaExpr | subscript =>
    refine (hr.renderField (t := hr.field hq)).bind fun _ hx => ?_
    refine (hr.renderField (t := hr.field hq)).bind fun _ hy => .pure (fits fun h => ?_)
    simp (disch := decide) [neat_append_cons, neat_cons, Neat.nil, hx.neat h, hy.neat h]
  | dictExpr =>
    refine (hr.renderItems (t := hr.each hq)).bind fun keys hk => ?_
    refine (hr.renderItems (t := hr.each hq)).bind fun values hv => .pure (fits fun h => ?_)
    rw [String.toList_append, String.toList_append]
    refine (neat_intercalate separates_comma (List.forall_mem_map.2 fun p hp => ?_)).braced
    simp (disch := decide) [neat_append_cons, neat_cons, (hk _ (List.of_mem_zip hp).1).neat h,
      (hv _ (List.of_mem_zip hp).2).neat h]
  | setExpr | listExpr | tupleExpr | extSlice =>
    refine (hr.renderItems (t := hr.each hq)).bind fun elts he => ?_
    refine (endsIf_joined (fun _ => separates_comma) he).bind fun t ht => .pure (fits fun h => ?_)
    first
    | exact ht h
    | simpa using (ht h).braced
    | simp (disch := decide) [neat_append_cons, neat_cons, Neat.nil, ht h]
  | yieldExpr =>
    refine (hr.renderGiven (t := hr.given hq)).bind fun value hv => .pure (fits fun h => ?_)
    split
    · simp (disch := decide) [neat_cons, (hv ‹_›).neat h]
    · exact neat_of_all (by decide)
  | compare =>
    refine (hr.renderField (t := hr.field hq)).bind fun left hLeft => ?_
    refine (hr.renderItems (t := hr.each hq)).bind fun ops hOps => ?_
    refine (hr.renderItems (t := hr.each hq)).bind fun others hOthers => ?_
    refine (endsIf_joined (b := b) (fun _ => separates_blank) fun v hv => ?_).bind fun t ht =>
      .pure (fits fun h => ?_)
    · rcases List.mem_cons.1 hv with rfl | hv
      · exact hLeft
      · obtain ⟨⟨op, other⟩, hPair, hv⟩ := List.mem_flatMap.1 hv
        simp only [List.mem_cons, List.not_mem_nil, or_false] at hv
        rcases hv with rfl | rfl
        · exact hOps _ (List.of_mem_zip hPair).1
        · exact hOthers _ (List.of_mem_zip hPair).2
    · simp (disch := decide) [neat_append_cons, neat_cons, Neat.nil, ht h]
  | call => exact hr.renderCall hq
  | reprExpr =>
    refine (hr.renderField (t := hr.field hq)).bind fun value hv => .pure (fits fun h => ?_)
    simp (disch := decide) [neat_append_cons, neat_cons, Neat.nil, hv.neat h]
  | num =>
    refine hr.need.bind fun p hp => ?_
    obtain ⟨x, -, hx, hmem⟩ := lookup_of_mem_names hr.toChecked
      (show "n" ∈ Kind.num.names by decide)
    have hWritable : p.1.isWritable = true := by
      rw [hp, hx]
      exact hn x hmem
    simp only [hWritable, if_true]
    refine .pure (fits fun h => ?_)
    have hNumber : Neat b (p.1.literal fun _ => "<object>").toList :=
      neat_number (hp ▸ hr.admits (.head _))
    split
    · simp (disch := decide) [neat_append_cons, neat_cons, Neat.nil, hNumber]
    · exact hNumber
  | str =>
    refine hr.need.bind fun p hp => .pure (fits fun h => ?_)
    obtain ⟨t, ht, hNeat⟩ := hr.text hq (.head _) (show "s" ∈ Kind.str.names by decide)
    rw [hp, ht]
    exact neat_quoted (hNeat h)
  | attributeExpr =>
    refine (hr.renderField (t := hr.field hq)).bind fun value hv => ?_
    refine hr.need.bind fun p hp => .pure (fits fun h => ?_)
    have hAttr : Fits q b p.1 := hp ▸ hr.text hq (.tail _ (.head _)) (by decide)
    simp (disch := decide) [neat_append_cons, hv.neat h, hAttr.neat h]
  | name => exact hr.need.bind fun p hp => .pure (hp ▸ hr.text hq (.head _) (by decide))
  | cName => exact hr.renderCName hq
  | sliceRange =>
    refine (hr.renderGiven (t := hr.given hq)).bind fun lower hl => ?_
    refine (hr.renderGiven (t := hr.given hq)).bind fun upper hu => ?_
    refine (hr.renderGiven (t := hr.given hq)).bind fun step hs => ?_
    refine (endsIf_joined (fun _ => separates_comma) (fits_sliceItems hl hu hs)).bind fun _ ht => ?_
    exact .pure (fits ht)
  | arguments => exact hr.renderArguments hq
  | keyword =>
    refine hr.need.bind fun arg ha => ?_
    refine (hr.renderField (t := hr.field hq)).bind fun value hv => .pure (fits fun h => ?_)
    have hArg : Fits q b arg.1 := ha ▸ hr.text hq (.head _) (by decide)
    simp (disch := decide) [neat_append_cons, hv.neat h, hArg.neat h]
  | typeName =>
    refine hr.need.bind fun const _ => ?_
    refine (hr.renderField (t := hr.field hq)).bind fun name hName => ?_
    refine (ends_textOf hName).bind fun t ht => .pure (fits fun h => ?_)
    split
    · simp (disch := decide) [neat_cons, ht h]
    · exact ht h
  | cFunctionType => exact hr.renderFunctionType hq
  -- these can never be made
  | listComp | setComp | generatorExp => cases hr.run _ (.tail _ (.head _))
  | dictComp => cases hr.run _ (.tail _ (.tail _ (.head _)))
  | indexSlice | comprehension | importedName => cases hr.run _ (.head _)
  | _ =>
    first
    | exact .pure (fits fun _ => neat_of_all (by decide))
    | exact (ends_say _).bind fun _ _ => .pure (fits fun h => by cases (hq h).drawn; contradiction)

/-! ### C types -/

theorem Ready.exists_field? (hr : Ready kind fields) {name : String} (h : name ∈ kind.names) :
    ∃ p : Part (.node kind fields), (Value.node kind fields).field? name = some p ∧ Sound p.1 ∧
      p.1 = fieldOf fields name ∧ Contains p.1 (.node kind fields) := by
  obtain ⟨x, hx, hf, -⟩ := lookup_of_mem_names hr.toChecked h
  obtain ⟨p, hp, rfl⟩ := field?_of_lookup kind hx
  exact ⟨p, hp, hr.sound h hf.symm, hf.symm, hr.contains h (hf ▸ .self _)⟩

/-- The levels of a C type are peeled off. -/
theorem Ready.levels (hr : Ready kind fields) (hn : ∀ x ∈ fields.map (·.2), x.isWritable = true) :
    ∃ marks base, peelLevels (.node kind fields) = .ok (marks, base) ∧
      Under (.node kind fields) marks base.1 := by
  by_cases hPointer : kind = .pointer
  · subst hPointer
    obtain ⟨const, hConst, -⟩ := hr.exists_field? (show "const" ∈ Kind.pointer.names by decide)
    obtain ⟨target, hTarget, hSound, -, hIn⟩ :=
      hr.exists_field? (show "value" ∈ Kind.pointer.names by decide)
    obtain ⟨marks, base, hLevels, hBase⟩ := hSound.levels
    obtain ⟨hb, h⟩ := peelLevels_pointer rfl hConst hTarget hLevels
    refine ⟨_, _, h, hBase.renders, fun m hm => ?_, hBase.inside.trans hIn⟩
    have hOr : m ∈ ["*", "&", "const", "()"] ∨ m ∈ marks := by grind
    exact hOr.elim isMark_word (hBase.marks m)
  · by_cases hArray : kind = .array
    · subst hArray
      have hDimName : "dim" ∈ Kind.array.names := by decide
      obtain ⟨dim, hDim, -, hd, -⟩ := hr.exists_field? hDimName
      obtain ⟨target, hTarget, hSound, -, hIn⟩ :=
        hr.exists_field? (show "value" ∈ Kind.array.names by decide)
      obtain ⟨marks, base, hLevels, hBase⟩ := hSound.levels
      have hWritable : dim.1.isWritable = true := by
        obtain ⟨x, -, hx, hmem⟩ := lookup_of_mem_names hr.toChecked hDimName
        rw [hd, hx]
        exact hn x hmem
      obtain ⟨hb, h⟩ := peelLevels_array rfl hDim hTarget hWritable hLevels
      refine ⟨_, _, h, hBase.renders, List.forall_mem_cons.2 ⟨isMark_dim _ ?_, hBase.marks⟩,
        hBase.inside.trans hIn⟩
      rw [hd]
      exact hr.admits (.tail _ (.head _))
    · refine ⟨[], .self _, peelLevels_of_kind ?_ ?_, hr.renders hn, by simp, .self⟩
      · simpa [kind?] using hPointer
      · simpa [kind?] using hArray

theorem Ready.toSound (hr : Ready kind fields) (hn : ∀ x ∈ fields.map (·.2), x.isWritable = true) :
    Sound (.node kind fields) := by
  refine ⟨hr.renders hn, hr.levels hn, ?_⟩
  by_cases hReference : kind = .reference
  · subst hReference
    obtain ⟨target, hTarget, hSound, -, hIn⟩ :=
      hr.exists_field? (show "value" ∈ Kind.reference.names by decide)
    obtain ⟨marks, base, hLevels, hBase⟩ := hSound.levels
    have hMarks := List.forall_mem_cons.2 ⟨isMark_word (m := "&") (by simp), hBase.marks⟩
    refine ⟨parenthesize ("&" :: marks), ⟨base.1, ?_⟩, ?_, hBase.renders,
      isMark_parenthesize hMarks, hBase.inside.trans hIn⟩
    · exact Nat.le_of_lt (Nat.lt_of_le_of_lt base.2 target.2)
    · rw [peel, if_pos (by simp [isNode, kind?]), hTarget]
      simp only [hLevels]
  · exact peel_of_not_reference (by simpa [isNode, kind?] using hReference) (hr.levels hn)

end Rules

/-- **Everything that has been made is rendered** if its numbers can be written. -/
theorem Made.sound (h : Made v) (hm : isModest v = true) : Sound v := by
  refine h.checked_induction (motive := fun v => isModest v = true → Sound v) ?_ hm
  intro kind fields hc hl ih hm
  have hParts : ∀ x ∈ fields.map (·.2), ∀ w, Carries x w → Sound w := by
    intro x hx w hw
    cases hKind : w.kind? with
    | none => exact sound_of_kind?_none hKind
    | some k => exact (ih x hx w hw (by simp [hKind])).2 (isModest_of_carries hm hx hw)
  exact Ready.toSound ⟨hc, hl, hParts⟩ fun x hx =>
    isWritable_of_isModest (isModest_of_carries hm hx (.self x))

end PxdGen.Pxd
