import PxdGen.Proofs.Follow
import PxdGen.Pxd.Statement
/-! # What a text does not tell

The text of a type tells whether a name or a pointer is constant, and nothing about `volatile` or
about the qualifiers of arrays and functions. `Value.bare` takes out of a node, and out of the nodes
in it, what its text does not tell. Nodes that are the same without it are rendered alike.
-/

namespace PxdGen

open Pxd

variable {name : String} {β γ : Type}

/-- The kinds of types, and of the nodes that a declaration has around them. -/
def Pxd.Kind.holdsTypes : Kind → Bool
  | .typeName | .pointer | .array | .reference | .cFunctionType | .arguments | .cName | .exprStmt
  | .cFunctionDecl | .structDef | .unionDef | .enumDef | .cdefDecl | .cTypedefDecl | .externFrom
  | .moduleNode => true
  | _ => false

/-- Whether a text tells the field of a kind. -/
def Pxd.Kind.tells (kind : Kind) (name : String) : Bool :=
  if name == "const" then kind == .typeName || kind == .pointer else name != "volatile"

namespace Value

mutual

/-- A value without what its text does not tell. -/
def bare : Value → Value
  | .list items => .list (bareAll items)
  | .tuple items => .tuple (bareAll items)
  | .node kind fields =>
    if kind.holdsTypes then .node kind (bareFields kind fields) else .node kind fields
  | v => v

def bareAll : List Value → List Value
  | [] => []
  | v :: rest => bare v :: bareAll rest

def bareFields (kind : Kind) : List (String × Value) → List (String × Value)
  | [] => []
  | (name, v) :: rest =>
    if kind.tells name then
      (name, if name == "const" then .flag v.isTrue else bare v) :: bareFields kind rest
    else bareFields kind rest

end

theorem bareAll_eq_map (vs : List Value) : bareAll vs = vs.map bare := by
  induction vs with
  | nil => rfl
  | cons v vs ih => rw [bareAll, ih, List.map_cons]

theorem bare_node {kind : Kind} (h : kind.holdsTypes = true) (fields : List (String × Value)) :
    (Value.node kind fields).bare = .node kind (bareFields kind fields) := by
  rw [bare, if_pos h]

@[simp] theorem kind?_bare (v : Value) : v.bare.kind? = v.kind? := by
  cases v <;> try rfl
  rw [bare]
  split <;> rfl

@[simp] theorem isNode_bare (v : Value) (kind : Kind) : v.bare.isNode kind = v.isNode kind := by
  rw [isNode, isNode, kind?_bare]

@[simp] theorem isTrue_bare (v : Value) : v.bare.isTrue = v.isTrue := by
  cases v with
  | list items | tuple items => cases items <;> rfl
  | node kind fields =>
    rw [bare]
    split <;> rfl
  | _ => rfl

theorem literal_list (link : Nat → String) (vs : List Value) :
    (Value.list vs).literal link = "[" ++ ", ".intercalate (literals link vs) ++ "]" := rfl

theorem literal_single (link : Nat → String) (v : Value) :
    (Value.tuple [v]).literal link = "(" ++ v.literal link ++ ",)" := rfl

theorem literal_tuple (link : Nat → String) (v w : Value) (vs : List Value) :
    (Value.tuple (v :: w :: vs)).literal link =
      "(" ++ ", ".intercalate (literals link (v :: w :: vs)) ++ ")" := rfl

theorem literals_cons (link : Nat → String) (v : Value) (vs : List Value) :
    literals link (v :: vs) = v.literal link :: literals link vs := rfl

mutual

theorem literal_bare (link : Nat → String) : ∀ v : Value, v.bare.literal link = v.literal link
  | .list vs => by rw [bare, literal_list, literal_list, literals_bareAll link vs]
  | .tuple [] => by simp only [bare, bareAll]
  | .tuple [v] => by
    simp only [bare, bareAll]
    rw [literal_single, literal_single, literal_bare link v]
  | .tuple (v :: w :: vs) => by
    simp only [bare, bareAll]
    rw [literal_tuple, literal_tuple]
    simp only [literals_cons, literal_bare link v, literal_bare link w, literals_bareAll link vs]
  | .node kind fields => by
    rw [bare]
    split <;> rfl
  | .nothing | .flag _ | .int _ | .float _ | .text _ | .record _ | .link _ | .ofKind _ => rfl

theorem literals_bareAll (link : Nat → String) :
    ∀ vs : List Value, literals link (bareAll vs) = literals link vs
  | [] => rfl
  | v :: vs => by
    rw [bareAll, literals_cons, literals_cons, literal_bare link v, literals_bareAll link vs]

end

@[simp] theorem plain_bare (v : Value) : v.bare.plain = v.plain := by
  cases v with
  | text s => rfl
  | node kind fields =>
    rw [bare]
    split <;> rfl
  | _ => exact literal_bare _ _

@[simp] theorem isWritable_bare (v : Value) : v.bare.isWritable = v.isWritable := by
  cases v with
  | node kind fields =>
    rw [bare]
    split <;> rfl
  | _ => rfl

theorem sort_bare (v : Value) : v.bare.sort = v.sort := by
  cases v with
  | node kind fields =>
    rw [bare]
    split <;> rfl
  | _ => rfl

/-! ### Fields -/

theorem lookupPart?_bareFields {kind : Kind} (hk : kind.tells name = true)
    (fields : List (String × Value)) : (lookupPart? name (bareFields kind fields)).map (·.1) =
      (lookupPart? name fields).map fun p => if name == "const" then .flag p.1.isTrue else
      p.1.bare := by
  induction fields with
  | nil => rfl
  | cons f fields ih =>
    obtain ⟨n, v⟩ := f
    rw [bareFields]
    by_cases hn : n = name
    · subst hn
      rw [if_pos hk]
      simp [lookupPart?]
    · by_cases htells : kind.tells n = true
      · rw [if_pos htells]
        simpa [lookupPart?, hn, Option.map_map, Function.comp_def] using ih
      · rw [if_neg htells]
        simpa [lookupPart?, hn, Option.map_map, Function.comp_def] using ih

end Value

namespace Pxd

open Rendering Value

variable {α : Type} {kind : Kind} {v w : Value}

/-- A part of a value and the part of another one that is the same without qualifiers. -/
def BarePart (p : Part v) (q : Part w) : Prop := q.1 = p.1.bare

/-! ### Parts -/

/-- Both values have a field, and these correspond, or none has. -/
def BothHave (R : Value → Value → Prop) (v w : Value) (name : String) : Prop :=
  (v.field? name = none ∧ w.field? name = none) ∨
    ∃ p q, v.field? name = some p ∧ w.field? name = some q ∧ R p.1 q.1

abbrev BothBare : Value → Value → String → Prop := BothHave fun a b => b = a.bare

theorem bothHave_of_map {f : Value → Value}
    (h : (w.field? name).map (·.1) = (v.field? name).map (f ·.1)) :
    BothHave (fun a b => b = f a) v w name := by
  cases hp : v.field? name with
  | none =>
    rw [hp, Option.map_none, Option.map_eq_none_iff] at h
    exact .inl ⟨hp, h⟩
  | some p =>
    rw [hp, Option.map_some, Option.map_eq_some_iff] at h
    obtain ⟨q, hq, hqp⟩ := h
    exact .inr ⟨p, q, hp, hq, hqp⟩

theorem bothHave_bare (hk : v.kind? = some kind) (hd : kind.holdsTypes = true)
    (hc : name ≠ "const") (hv : name ≠ "volatile") :
    BothBare v v.bare name := by
  cases v with
  | node k fields =>
    obtain rfl : k = kind := Option.some.inj hk
    refine bothHave_of_map ?_
    rw [bare_node hd]
    have hTells : k.tells name = true := by simp [Kind.tells, hc, hv]
    simpa [field?, Option.map_map, Function.comp_def, hc] using lookupPart?_bareFields hTells fields
  | _ => cases hk

theorem bothHave_const (hk : v.kind? = some kind) (hd : kind.holdsTypes = true)
    (hc : kind.tells "const" = true) :
    BothHave (fun a b => b = .flag a.isTrue) v v.bare "const" := by
  cases v with
  | node k fields =>
    obtain rfl : k = kind := Option.some.inj hk
    refine bothHave_of_map (f := fun a => .flag a.isTrue) ?_
    rw [bare_node hd]
    simpa [field?, Option.map_map, Function.comp_def] using lookupPart?_bareFields hc fields
  | _ => cases hk

theorem BothHave.need {R : Value → Value → Prop} {name : String} (h : BothHave R v w name)
    {f : Part w → Rendering α} {g : Part v → Rendering α} (hfg : ∀ p q, R p.1 q.1 → f q = g p) :
    (need w name >>= f) = (need v name >>= g) := by
  rw [Rendering.need, Rendering.need]
  obtain ⟨hp, hq⟩ | ⟨p, q, hp, hq, hR⟩ := h
  · rw [hp, hq]
    rfl
  · rw [hp, hq]
    exact hfg p q hR

theorem items?_bare (v : Value) : v.bare.items? = v.items?.map bareAll := by
  cases v with
  | node kind fields =>
    rw [bare]
    split <;> rfl
  | record fields | text s =>
    simp [bare, items?, bareAll_eq_map, Function.comp_def]
  | _ => rfl

theorem map_items? {v : Value} (p : Part v) : p.items?.map (·.map (·.1)) = p.1.items? := by
  obtain ⟨w, hw⟩ := p
  cases w <;> simp only [Part.items?, Value.items?, Option.map_some, Option.map_none, List.map_map,
    Function.comp_def, List.attach_map_subtype_val]

theorem forall₂_barePart {v w : Value} {ps : List (Part v)} {qs : List (Part w)}
    (h : qs.map (·.1) = bareAll (ps.map (·.1))) : List.Forall₂ BarePart ps qs := by
  induction ps generalizing qs with
  | nil =>
    rw [List.map_nil, bareAll, List.map_eq_nil_iff] at h
    rw [h]
    exact .nil
  | cons p ps ih =>
    cases qs with
    | nil => cases h
    | cons q qs =>
      rw [List.map_cons, List.map_cons, bareAll, List.cons.injEq] at h
      exact .cons h.1 (ih h.2)

theorem items_bare {v w : Value} {p : Part v} {q : Part w} (hpq : BarePart p q)
    {f : List (Part w) → Rendering α} {g : List (Part v) → Rendering α}
    (h : ∀ ps qs, List.Forall₂ BarePart ps qs → f qs = g ps) :
        (items q >>= f) = (items p >>= g) := by
  have hp := map_items? p
  have hq := map_items? q
  rw [hpq, items?_bare, ← hp] at hq
  rw [items, items]
  cases hps : p.items? with
  | none =>
    rw [hps, Option.map_none, Option.map_none, Option.map_eq_none_iff] at hq
    rw [hq]
    rfl
  | some ps =>
    rw [hps, Option.map_some, Option.map_some, Option.map_eq_some_iff] at hq
    obtain ⟨qs, hqs, hvalues⟩ := hq
    rw [hqs]
    exact h ps qs (forall₂_barePart hvalues)

theorem mapM_congr_of_forall₂ {R : β → γ → Prop} {f : γ → Rendering α}
    {g : β → Rendering α} (h : ∀ b c, R b c → f c = g b) {bs : List β} {cs : List γ}
    (hbc : List.Forall₂ R bs cs) : cs.mapM f = bs.mapM g := by
  induction hbc with
  | nil => rfl
  | cons hb _ ih => rw [List.mapM_cons, List.mapM_cons, h _ _ hb, ih]

theorem forM_congr_of_forall₂ {R : β → γ → Prop} {f : γ → Rendering Unit}
    {g : β → Rendering Unit} (h : ∀ b c, R b c → f c = g b) {bs : List β} {cs : List γ}
    (hbc : List.Forall₂ R bs cs) : cs.forM f = bs.forM g := by
  induction hbc with
  | nil => rfl
  | @cons b c _ _ hb _ ih =>
    show (f c >>= fun _ => _) = (g b >>= fun _ => _)
    rw [h b c hb, ih]

/-! ### Declarators -/

/-- What peeling a type gives, and what it gives without the qualifiers of the type. -/
inductive BarePeel {v w : Value} :
    Except Fault (List String × Core v) → Except Fault (List String × Core w) → Prop
  | error (e : Fault) : BarePeel (.error e) (.error e)
  | ok {marks marks' : List String} {base : Core v} {base' : Core w} (hm : marks' = marks)
    (hb : base'.1 = base.1.bare) : BarePeel (.ok (marks, base)) (.ok (marks', base'))

/-- The size of an array as a mark shows it. -/
theorem dim_bare (d : Value) : (if d.bare matches .nothing then "" else d.bare.plain) =
    if d matches .nothing then "" else d.plain := by
  cases d with
  | nothing => rfl
  | node kind fields =>
    by_cases hk : kind.holdsTypes = true
    · rw [bare, if_pos hk]
      rfl
    · rw [bare, if_neg hk]
  | _ => exact plain_bare _

theorem peelLevels_bare (v : Value) : BarePeel (peelLevels v) (peelLevels v.bare) := by
  by_cases hp : v.kind? = some .pointer
  · have hp' : v.bare.kind? = some .pointer := by rwa [kind?_bare]
    rw [peelLevels, peelLevels.eq_def v.bare]
    simp only [hp, hp']
    obtain ⟨hc, hc'⟩ | ⟨c, c', hc, hc', hconst⟩ := bothHave_const hp rfl rfl
    · simp only [hc, hc']
      exact .error _
    obtain ⟨ht, ht'⟩ | ⟨⟨t, hlt⟩, ⟨_, hlt'⟩, ht, ht', rfl⟩ :=
      bothHave_bare hp rfl (show "value" ≠ "const" by decide) (by decide)
    · simp only [hc, hc', ht, ht']
      exact .error _
    have ih := peelLevels_bare t
    have htrue : c'.1.isTrue = c.1.isTrue := by
      rw [hconst]
      rfl
    simp only [hc, hc', ht, ht', htrue]
    generalize peelLevels t = r, peelLevels t.bare = r' at ih ⊢
    cases ih with
    | error e => exact .error e
    | ok hm hb => exact .ok (by rw [hm]) hb
  · by_cases ha : v.kind? = some .array
    · have ha' : v.bare.kind? = some .array := by rwa [kind?_bare]
      rw [peelLevels, peelLevels.eq_def v.bare]
      simp only [ha, ha']
      obtain ⟨hd, hd'⟩ | ⟨⟨d, hdlt⟩, ⟨_, hdlt'⟩, hd, hd', rfl⟩ :=
        bothHave_bare ha rfl (show "dim" ≠ "const" by decide) (by decide)
      · simp only [hd, hd']
        exact .error _
      obtain ⟨ht, ht'⟩ | ⟨⟨t, hlt⟩, ⟨_, hlt'⟩, ht, ht', rfl⟩ :=
        bothHave_bare ha rfl (show "value" ≠ "const" by decide) (by decide)
      · simp only [hd, hd', ht, ht']
        exact .error _
      have ih := peelLevels_bare t
      simp only [hd, hd', ht, ht', isWritable_bare]
      split
      · generalize peelLevels t = r, peelLevels t.bare = r' at ih ⊢
        cases ih with
        | error e => exact .error e
        | ok hm hb =>
          subst hm
          exact .ok (congrArg (fun size => ("[" ++ size ++ "]") :: _) (dim_bare d)) hb
      · exact .error _
    · rw [peelLevels_of_kind hp ha, peelLevels_of_kind (by rwa [kind?_bare]) (by rwa [kind?_bare])]
      exact .ok rfl rfl
termination_by v.depth

theorem peel_bare (v : Value) : BarePeel (peel v) (peel v.bare) := by
  rw [peel, peel, isNode_bare]
  by_cases hr : v.isNode .reference = true
  · rw [if_pos hr, if_pos hr]
    have hkind : v.kind? = some .reference := by simpa [isNode] using hr
    obtain ⟨ht, ht'⟩ | ⟨⟨t, hlt⟩, ⟨_, hlt'⟩, ht, ht', rfl⟩ :=
      bothHave_bare hkind rfl (show "value" ≠ "const" by decide) (by decide)
    · simp only [ht, ht']
      exact .error _
    have hlevels := peelLevels_bare t
    simp only [ht, ht']
    generalize peelLevels t = r, peelLevels t.bare = r' at hlevels ⊢
    cases hlevels with
    | error e => exact .error e
    | ok hm hb => exact .ok (by rw [hm]) hb
  · rw [if_neg hr, if_neg hr]
    have hlevels := peelLevels_bare v
    generalize peelLevels v = r, peelLevels v.bare = r' at hlevels ⊢
    cases hlevels with
    | error e => exact .error e
    | ok hm hb => exact .ok (by rw [hm]) hb

theorem peelField_bare (h : BothBare v w name)
    {f : List String × Part w → Rendering α} {g : List String × Part v → Rendering α}
    (hfg : ∀ marks p q, BarePart p q → f (marks, q) = g (marks, p)) :
    (peelField w name >>= f) = (peelField v name >>= g) := by
  rw [peelField, peelField, bind_assoc, bind_assoc]
  refine h.need ?_
  rintro ⟨p, hp⟩ ⟨q, hq⟩ rfl
  have hpeel := peel_bare p
  simp only
  generalize peel p = r, peel p.bare = r' at hpeel ⊢
  cases hpeel with
  | error e => rfl
  | ok hm hb =>
    subst hm
    exact hfg _ _ _ hb

/-! ### Expressions and types -/

theorem textOf_bare (v : Value) : textOf v.bare = textOf v := by
  cases v with
  | node kind fields =>
    rw [bare]
    split <;> rfl
  | _ => rfl

theorem declare_bare (base type : Value) (marks : List String) (name : Value) :
    declare base.bare type (declarator marks name.bare) = declare base type
    (declarator marks name) := by
  have hplain : (declarator marks name.bare).plain = (declarator marks name).plain := by
    cases marks with
    | nil => exact plain_bare name
    | cons m marks => simp [declarator]
  have htext : textOf (declarator marks name.bare) = textOf (declarator marks name) := by
    cases marks with
    | nil => exact textOf_bare name
    | cons m marks => simp [declarator]
  rw [declare, declare, isNode_bare, hplain, htext]

section Step

variable {sub : Part v → Rendering Value} {sub' : Part w → Rendering Value}

/-- How the parts of values are rendered that are the same without qualifiers. -/
def SubBare (sub : Part v → Rendering Value) (sub' : Part w → Rendering Value) : Prop :=
  ∀ p q, BarePart p q → sub' q = sub p

variable (hsub : SubBare sub sub')
include hsub

theorem renderField_bare (h : BothBare v w name) :
    renderField w sub' name = renderField v sub name := h.need hsub

theorem renderStarred_bare (h : BothBare v w name)
    (mark : String) : renderStarred w sub' mark name = renderStarred v sub mark name := by
  refine h.need fun p q hpq => ?_
  rw [hsub p q hpq, hpq, isTrue_bare]

omit hsub in
theorem forall₂_fillers {ps given : List (Part v)} {qs given' : List (Part w)}
    (h : List.Forall₂ BarePart ps qs) (hgiven : List.Forall₂ BarePart given given') :
    List.Forall₂ (fun x y => BarePart x.1 y.1 ∧ Option.Rel BarePart x.2 y.2)
      (ps.zip (List.replicate (ps.length - given.length) none ++ given.map some))
      (qs.zip (List.replicate (qs.length - given'.length) none ++ given'.map some)) := by
  rw [← h.length_eq, ← hgiven.length_eq]
  have hfill : ∀ n, List.Forall₂ (Option.Rel BarePart)
      (List.replicate n (none : Option (Part v)) ++ given.map some)
      (List.replicate n (none : Option (Part w)) ++ given'.map some) := by
    intro n
    induction n with
    | zero =>
      refine (List.forall₂_map_left_iff.2 (List.forall₂_map_right_iff.2 ?_))
      exact hgiven.imp fun _ _ => .some
    | succ n ih => exact .cons .none ih
  generalize ps.length - given.length = n
  have hall := hfill n
  generalize List.replicate n none ++ given.map some = fs at hall ⊢
  generalize List.replicate n none ++ given'.map some = fs' at hall ⊢
  induction h generalizing fs fs' with
  | nil => exact .nil
  | cons hp _ ih =>
    cases hall with
    | nil => exact .nil
    | cons hf hrest => exact .cons ⟨hp, hf⟩ (ih _ _ hrest)

theorem renderArguments_bare
    (h : ∀ name ∈ ["args", "defaults", "vararg", "kwarg"], BothBare v w name) :
    renderArguments w sub' = renderArguments v sub := by
  refine (h "args" (by decide)).need fun args args' hargs => ?_
  refine (h "defaults" (by decide)).need fun defaults defaults' hdefaults => ?_
  refine items_bare hargs fun count count' hcount => ?_
  refine items_bare hdefaults fun given given' hgiven => ?_
  have hzip := forall₂_fillers hcount hgiven
  obtain ⟨d, hd⟩ := defaults
  obtain ⟨_, hd'⟩ := defaults'
  obtain rfl := hdefaults
  cases d
  case list vs =>
    dsimp only [bare]
    rw [mapM_congr_of_forall₂ ?_ hzip, renderStarred_bare hsub (h "vararg" (by decide)),
      renderStarred_bare hsub (h "kwarg" (by decide))]
    rintro ⟨arg, default⟩ ⟨arg', default'⟩ ⟨harg, hdefault⟩
    dsimp only
    rw [hsub _ _ harg]
    cases hdefault with
    | none => rfl
    | some hdefault => simp only [hsub _ _ hdefault]
  case node kind fields =>
    dsimp only
    by_cases hk : kind.holdsTypes = true
    · simp only [bare, if_pos hk]
      rfl
    · simp only [bare, if_neg hk]
      rfl
  all_goals rfl

theorem renderCName_bare (h : ∀ name ∈ ["ctype", "name"], BothBare v w name) :
    renderCName w sub' = renderCName v sub := by
  refine bind_congr fun lead => peelField_bare (h "ctype" (by decide)) fun marks base base' hbase =>
    ?_
  refine (h "name" (by decide)).need fun name name' hname => ?_
  rw [hsub base base' hbase, hbase, hname]
  simp only [declare_bare]

theorem renderFunctionType_bare
    (h : ∀ name ∈ ["args", "returns"], BothBare v w name) :
    renderFunctionType w sub' = renderFunctionType v sub := by
  rw [renderFunctionType, renderField_bare hsub (h "args" (by decide))]
  refine bind_congr fun args => ?_
  refine peelField_bare (h "returns" (by decide)) fun marks base base' hbase => ?_
  dsimp only
  rw [hsub base base' hbase, hbase]
  simp only [declare, isNode_bare]

end Step

/-- The fields of a value, but for the qualifiers, and those of the value without them. -/
theorem bothHave_all (hk : v.kind? = some kind) (hd : kind.holdsTypes = true) {names : List String}
    (hnames : "const" ∉ names ∧ "volatile" ∉ names) :
    ∀ name ∈ names, BothBare v v.bare name := by
  intro name hname
  exact bothHave_bare hk hd (fun h => hnames.1 (h ▸ hname)) fun h => hnames.2 (h ▸ hname)

/-- A value is the same without its qualifiers unless it is a sequence or part of a declaration. -/
theorem bare_eq_or (v : Value) :
    v.bare = v ∨ v.kind? = none ∨ ∃ kind, v.kind? = some kind ∧ kind.holdsTypes = true := by
  cases v with
  | node kind fields =>
    by_cases hk : kind.holdsTypes = true
    · exact .inr (.inr ⟨kind, rfl, hk⟩)
    · exact .inl (by rw [bare, if_neg hk])
  | _ => exact .inr (.inl rfl)

theorem render_bare (v : Value) : render v.bare = render v := by
  have hsub : SubBare (fun p : Part v => render p.1) fun q : Part v.bare => render q.1 := by
    intro p q hpq
    show render q.1 = render p.1
    rw [hpq]
    exact render_bare p.1
  have hundefined : renderStep.undefinedNode v.bare = renderStep.undefinedNode v := by
    rw [renderStep.undefinedNode, renderStep.undefinedNode, plain_bare]
  obtain hv | hk | ⟨kind, hk, hd⟩ := bare_eq_or v
  · rw [hv]
  · rw [render, render.eq_def v, renderStep, renderStep, kind?_bare, hk]
    exact hundefined
  rw [render, render.eq_def v, renderStep, renderStep, kind?_bare, hk]
  have hfields {names : List String} (hnames : "const" ∉ names ∧ "volatile" ∉ names) :=
    bothHave_all hk hd hnames
  have hconst := fun hc => bothHave_const hk hd hc
  clear hk
  unfold Kind.holdsTypes at hd
  split at hd
  case h_1 =>
    refine (hconst rfl).need fun p q hpq => ?_
    have hname := hfields (show "const" ∉ ["name"] ∧ "volatile" ∉ ["name"] by decide) "name"
      (by decide)
    rw [renderField_bare hsub hname, hpq]
    rfl
  case h_5 => exact renderFunctionType_bare hsub (hfields (by decide))
  case h_6 => exact renderArguments_bare hsub (hfields (by decide))
  case h_7 => exact renderCName_bare hsub (hfields (by decide))
  case h_17 => cases hd
  all_goals exact hundefined
termination_by v.depth
decreasing_by exact p.2

/-! ### Statements -/

section Visit

theorem shown_bare (h : BothBare v w name) :
    shown w name = shown v name := by
  refine h.need fun p q hpq => ?_
  rw [hpq, render_bare]

theorem shownItems_bare (h : BothBare v w name) :
    shownItems w name = shownItems v name := by
  refine h.need fun p q hpq => items_bare hpq fun ps qs hps => mapM_congr_of_forall₂ ?_ hps
  intro p q hpq
  rw [hpq, render_bare]

theorem functionText_bare (h : BothBare v w "returns") (name args : String) :
    functionText w name args = functionText v name args := by
  refine h.need fun p q hpq => ?_
  rw [hpq, isTrue_bare]
  split
  · refine peelField_bare h fun marks base base' hbase => ?_
    dsimp only
    rw [hbase, render_bare]
    simp only [declare, isNode_bare]
  · rfl

theorem visitCFunctionDecl_bare
    (h : ∀ name ∈ ["name", "args", "returns", "excepts"], BothBare v w name) :
    visitCFunctionDecl w = visitCFunctionDecl v := by
  refine bind_congr fun lead => (h "name" (by decide)).need fun name name' hname => ?_
  rw [shown_bare (h "args" (by decide)), hname, plain_bare]
  refine bind_congr fun args => ?_
  rw [functionText_bare (h "returns" (by decide))]
  refine bind_congr fun text => (h "excepts" (by decide)).need fun excepts excepts' hexcepts => ?_
  rw [hexcepts, isTrue_bare, render_bare]

variable {sub : Part v → Rendering Unit} {sub' : Part w → Rendering Unit}
variable (hsub : ∀ p q, BarePart p q → sub' q = sub p)
include hsub

theorem block_bare (h : BothBare v w name) :
    block w sub' name = block v sub name := by
  have hitems : visitItems w sub' name = visitItems v sub name :=
    h.need fun p q hpq => items_bare hpq fun ps qs hps => forM_congr_of_forall₂ hsub hps
  rw [block, block, hitems]

theorem visitNamed_bare (h : ∀ name ∈ ["name", "body"], BothBare v w name)
    (word : String) : visitNamed w sub' word = visitNamed v sub word := by
  refine (h "name" (by decide)).need fun name name' hname => ?_
  rw [hname, plain_bare, record, record, block_bare hsub (h "body" (by decide))]

theorem visitEnumDef_bare (h : ∀ name ∈ ["name", "body"], BothBare v w name) :
    visitEnumDef w sub' = visitEnumDef v sub := by
  refine (h "name" (by decide)).need fun name name' hname => ?_
  rw [hname, isTrue_bare, plain_bare, record, record, block_bare hsub (h "body" (by decide))]

theorem visitExternFrom_bare
    (h : ∀ name ∈ ["name", "body"], BothBare v w name) :
    visitExternFrom w sub' = visitExternFrom v sub := by
  refine (h "name" (by decide)).need fun name name' hname => ?_
  rw [hname, plain_bare, block_bare hsub (h "body" (by decide))]

end Visit

theorem visit_bare (v : Value) : visit v.bare = visit v := by
  have hsub : ∀ (p : Part v) (q : Part v.bare), BarePart p q → visit q.1 = visit p.1 := by
    intro p q hpq
    rw [hpq]
    exact visit_bare p.1
  have hother : say ("No visitor for node: `" ++ v.bare.plain ++ "`") =
      say ("No visitor for node: `" ++ v.plain ++ "`") := by rw [plain_bare]
  obtain hv | hk | ⟨kind, hk, hd⟩ := bare_eq_or v
  · rw [hv]
  · rw [visit, visit.eq_def v, visitStep, visitStep, kind?_bare, hk]
    exact hother
  rw [visit, visit.eq_def v, visitStep, visitStep, kind?_bare, hk]
  have hfields {names : List String} (hnames : "const" ∉ names ∧ "volatile" ∉ names) :=
    bothHave_all hk hd hnames
  have hvalue := bothHave_bare hk hd (show "value" ≠ "const" by decide) (by decide)
  clear hk
  unfold Kind.holdsTypes at hd
  split at hd
  case h_8 =>
    show (shown v.bare "value" >>= _) = (shown v "value" >>= _)
    rw [shown_bare hvalue]
  case h_9 => exact visitCFunctionDecl_bare (hfields (by decide))
  case h_10 => exact visitNamed_bare hsub (hfields (by decide)) _
  case h_11 => exact visitNamed_bare hsub (hfields (by decide)) _
  case h_12 => exact visitEnumDef_bare hsub (hfields (by decide))
  case h_13 =>
    show (shownItems v.bare "modifiers" >>= _) = (shownItems v "modifiers" >>= _)
    rw [shownItems_bare (hfields (show "const" ∉ ["modifiers"] ∧ _ by decide) _ (by decide))]
    exact bind_congr fun modifiers => bind_congr fun words => bind_congr fun _ => hvalue.need hsub
  case h_14 => exact bind_congr fun _ => hvalue.need fun p q hpq => by rw [hsub p q hpq]
  case h_15 => exact visitExternFrom_bare hsub (hfields (by decide))
  case h_16 =>
    refine (hfields (show "const" ∉ ["body"] ∧ _ by decide) "body" (by decide)).need ?_
    intro p q hpq
    refine items_bare hpq fun ps qs hps => forM_congr_of_forall₂ (fun p q hpq => ?_) hps
    rw [hsub p q hpq]
  case h_17 => cases hd
  all_goals exact hother
termination_by v.depth
decreasing_by exact p.2

/-- **Modules that are the same without what their texts do not tell are rendered alike.** -/
theorem renderModule_congr {v w : Value} (h : w.bare = v.bare) :
    renderModule w = renderModule v := by
  have hnode : w.isNode .moduleNode = v.isNode .moduleNode := by
    rw [← isNode_bare w, h, isNode_bare]
  have hsort : w.sort = v.sort := by rw [← sort_bare w, h, sort_bare]
  rw [renderModule, renderModule, hnode, hsort, ← visit_bare w, h, visit_bare]

end Pxd

end PxdGen
