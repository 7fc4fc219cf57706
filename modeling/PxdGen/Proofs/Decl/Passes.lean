import PxdGen.Decl.Definition
import PxdGen.Decl.Flatten
import PxdGen.Proofs.Decl.Alike
/-! # The passes on graphs that differ in their numbers

Sorting, flattening, filtering and drafting look at forms, names, locations and links, and none of
them looks at a number. So each pass on a graph is followed by the same pass on a graph with other
numbers, and at the end the same module is drafted.
-/

namespace PxdGen.Decl

open Work

variable {π : Nat → Nat} {v w : Value}

theorem Link.near (h : Link π v w) : Near π v w := .inl h

theorem follows_members (hv : Near π v w) :
    Mirrors π (List.Forall₂ (Link π)) (fieldItems v "members")
      (fieldItems w "members") := follows_fieldItems hv fun _ _ h => h

variable {β α : Type} {a b : Value} {bs : List β} {as : List α} {name : String} {s t : Session}
  {R : α → β → Prop}

theorem follows_ofOrigin {f : Origin → Work α} {g : Origin → Work β}
    (h : Mirrors π R (f .dump) (g .dump)) : Mirrors π R (origin >>= f) (origin >>= g) := by
  refine .bind follows_origin ?_
  rintro _ _ ⟨rfl, rfl⟩
  exact h

/-! ### The global namespace -/

theorem Alike.isGlobal (h : Alike π s t) (hv : Link π v w) :
    t.graph.isGlobal w = s.graph.isGlobal v := by
  rw [Graph.isGlobal, Graph.isGlobal, Graph.hasForm, Graph.hasForm, h.form? hv.near]
  obtain ⟨ha, hb⟩ | ⟨a, b, ha, hb, hab⟩ := h.field? hv.near "name"
  · rw [ha, hb]
  · rw [ha, hb, hab.1]

theorem Link.eq {w' : Value} (h : Link π v w) (h' : Link π v w') : w = w' := by
  obtain ⟨i, rfl, rfl⟩ := h
  obtain ⟨j, hij, rfl⟩ := h'
  cases hij
  rfl

/-- If there is only one global namespace, it does not matter where it stands among the others. -/
theorem Alike.gives_findToplevel {s' : Session} (h : Alike π s t) {vs us ws : List Value}
    (hus : List.Forall₂ (Link π) vs us) (hws : ws.Perm us)
    (hone : ∀ a ∈ vs, ∀ b ∈ vs, s.graph.isGlobal a = true → s.graph.isGlobal b = true → a = b)
    (hx : Gives (findToplevel (.list vs)) s v s') :
    s' = s ∧ ∃ w, Gives (findToplevel (.list ws)) t w t ∧ Links π v w := by
  have h₁ := gives_after (gives_get.2 ⟨rfl, rfl⟩) hx
  have h₂ := gives_after (gives_items (v := .list vs) rfl) h₁
  simp only [h.origin.1] at h₂
  split at h₂
  · exact absurd h₂ gives_throw
  · rename_i ns hfind
    have hns : s.graph.isGlobal ns = true := List.find?_some hfind
    obtain ⟨ns', hns', hlink⟩ := exists_of_forall₂_left hus (List.mem_of_find?_eq_some hfind)
    -- whatever is found on the other side is the counterpart of a global namespace, hence of `ns`
    have hfind' : ws.find? t.graph.isGlobal = some ns' := by
      cases hw : ws.find? t.graph.isGlobal with
      | none =>
        have := List.find?_eq_none.1 hw ns' (hws.mem_iff.2 hns')
        exact absurd ((h.isGlobal hlink).trans hns) this
      | some n =>
        obtain ⟨m, hm, hmn⟩ := exists_of_forall₂_right hus
          (hws.mem_iff.1 (List.mem_of_find?_eq_some hw))
        have hglobal : s.graph.isGlobal m = true := (h.isGlobal hmn).symm.trans (List.find?_some hw)
        obtain rfl := hone m hm ns (List.mem_of_find?_eq_some hfind) hglobal hns
        rw [hmn.eq hlink]
    obtain ⟨a, s₁, hfield, h₃⟩ := gives_bind.1 h₂
    obtain ⟨ha, rfl⟩ := gives_field_iff.1 hfield
    obtain ⟨hnone, -⟩ | ⟨a', b, hs, ht, vs', ws', rfl, rfl, hl⟩ := h.field? hlink.near "members"
    · cases ha.symm.trans hnone
    · obtain rfl := Option.some.inj (hs.symm.trans ha)
      obtain ⟨rfl, rfl⟩ := gives_pure.1 h₃
      exact ⟨rfl, .list ws', Decl.gives_findToplevel h.origin.2 hfind' ht, vs', ws', rfl, rfl, hl⟩

/-! ### Sorting -/

theorem forall₂_mergeSort (le : α → α → Bool) (le' : β → β → Bool)
    (hle : ∀ a b, R a b → ∀ a' b', R a' b' → le' b b' = le a a') (h : List.Forall₂ R as bs) :
    List.Forall₂ R (as.mergeSort le) (bs.mergeSort le') := by
  -- both lists are the projections of one list of pairs
  obtain ⟨ps, hR, rfl, rfl⟩ : ∃ ps : List (α × β), (∀ p ∈ ps, R p.1 p.2) ∧
      as = ps.map Prod.fst ∧ bs = ps.map Prod.snd := by
    induction h with
    | nil => exact ⟨[], by simp, rfl, rfl⟩
    | @cons a b _ _ hab _ ih =>
      obtain ⟨ps, hR, rfl, rfl⟩ := ih
      exact ⟨(a, b) :: ps, by simpa using ⟨hab, fun x y => hR (x, y)⟩, rfl, rfl⟩
  rw [← List.map_mergeSort (r := fun p q => le p.1 q.1) (fun p _ q _ => rfl),
    ← List.map_mergeSort (r := fun p q => le p.1 q.1)
      (fun p hp q hq => (hle _ _ (hR p hp) _ _ (hR q hq)).symm)]
  rw [List.forall₂_map_left_iff, List.forall₂_map_right_iff, List.forall₂_same]
  exact fun p hp => hR p (List.mem_mergeSort.1 hp)

theorem follows_sortByLocation (h : Links π v w) :
    Mirrors π (Links π) (sortByLocation v) (sortByLocation w) := by
  obtain ⟨vs, ws, rfl, rfl, hl⟩ := h
  refine .bind (R := List.Forall₂ (Link π)) (.pure hl) fun vs ws hl => ?_
  refine .bind (.mapM (Q := fun p q => q.1 = p.1 ∧ Link π p.2 q.2) (fun a b hab => ?_) hl)
    fun ps qs hpq => ?_
  · exact .bind (follows_field hab.near "location") fun x y hxy => .pure ⟨hxy, hab⟩
  · have hfst : qs.map (·.1) = ps.map (·.1) := by
      induction hpq with
      | nil => rfl
      | cons h _ ih => rw [List.map_cons, List.map_cons, h.1, ih]
    rw [hfst]
    split
    · refine .pure ⟨_, _, rfl, rfl, ?_⟩
      have hs := forall₂_mergeSort (fun a b : Value × Value => !(before? b.1 a.1).getD false)
        (fun a b : Value × Value => !(before? b.1 a.1).getD false)
        (fun a b hab a' b' hab' => by rw [hab.1, hab'.1]) hpq
      rw [List.forall₂_map_left_iff, List.forall₂_map_right_iff]
      exact hs.imp fun _ _ h => h.2
    · exact .throw _

/-! ### Flattening -/

structure LiftedPair (π : Nat → Nat) (l l' : Lifted) : Prop where
  position : l'.position = l.position
  container : Link π l.container l'.container
  typedef : Link π l.typedef l'.typedef

theorem forall₂_eraseIdx (h : List.Forall₂ R as bs) (i : Nat) :
    List.Forall₂ R (as.eraseIdx i) (bs.eraseIdx i) := by
  induction h generalizing i with
  | nil => simp
  | cons hab hl ih =>
    cases i with
    | zero => exact hl
    | succ i => exact .cons hab (ih i)

theorem follows_detach (hv : Link π v w) {l l' : Lifted} (hl : LiftedPair π l l') :
    Mirrors π (fun _ _ => True) (detach v l) (detach w l') := by
  refine .bind (follows_members hv.near) fun vs ws hvw => ?_
  rw [hl.position]
  refine .bind (follows_setField hv ⟨_, _, rfl, rfl, forall₂_eraseIdx hvw _⟩) fun _ _ _ => ?_
  refine follows_ofOrigin ?_
  refine .bind (follows_members hv.near) fun vs ws hvw => ?_
  refine .forM (fun m m' hm => ?_) hvw
  refine .bind (follows_hasForm hm.near .field) fun b b' hb => ?_
  obtain rfl := hb
  cases b with
  | false => exact .pure trivial
  | true =>
    refine .bind (follows_field hm.near "typ") fun a b hab => ?_
    refine .assuming fun s t h => ?_
    rw [h.same_eq hab hl.container]
    split
    · exact follows_setField hm (.inl hl.typedef)
    · exact .pure trivial

theorem follows_nestedIn (hv : Link π v w) :
    Mirrors π (List.Forall₂ fun p q => q.1 = p.1 ∧ Link π p.2 q.2) (nestedIn v) (nestedIn w) := by
  refine .get fun s t h => .bind (follows_members hv.near) fun vs ws hvw => .pure ?_
  rw [List.forall₂_map_left_iff, List.forall₂_map_right_iff]
  have hzip :
      ∀ n, List.Forall₂ (fun p q => q.2 = p.2 ∧ Link π p.1 q.1) (vs.zipIdx n) (ws.zipIdx n) := by
    induction hvw with
    | nil => simp
    | cons hab _ ih => exact fun n => .cons ⟨rfl, hab⟩ (ih (n + 1))
  refine (List.rel_filter (fun p q hpq => ?_) (hzip 0)).imp fun _ _ h => h
  simp [Graph.isContainer, h.form? hpq.2.near]

theorem follows_outerName (hv : Link π v w) :
    Mirrors π (Resolved π "name") (outerName v) (outerName w) := by
  refine .bind (follows_field hv.near "name") fun a b hab => ?_
  refine follows_ofOrigin ?_
  exact .pure hab

theorem follows_shown_name (h : Resolved π "name" a b) : Mirrors π Eq (shown a) (shown b) := by
  obtain ⟨rfl, rfl | ⟨n, rfl⟩⟩ := h
  · exact .get fun _ _ _ => .pure rfl
  · exact .get fun _ _ _ => .pure rfl

theorem follows_makeTypedef (name : String) {c d : Value} (hab : Near π a b) (hcd : Near π c d) :
    Mirrors π (Link π) (make .typedef [.text name, a, c]) (make .typedef [.text name, b, d]) := by
  intro s t x s' h hx
  obtain ⟨rfl, rfl⟩ := (gives_make (make?_typedef s.graph.origin name a c)).unique hx
  refine ⟨_, _, gives_make (make?_typedef t.graph.origin name b d), ?_,
    h.add (Entry.Pairs.corresponds ⟨rfl, ?_⟩)⟩
  · exact ⟨_, rfl, by rw [h.fixed _ (Nat.le_refl _), h.size]⟩
  · exact .cons ⟨rfl, rfl⟩
      (.cons ⟨rfl, rfl, .inr ⟨name, rfl⟩⟩ (.cons ⟨rfl, hab⟩ (.cons ⟨rfl, hcd⟩ .nil)))

theorem follows_lift {inner inner' : Value → Work (List Value)}
    (hinner : ∀ a b, Link π a b → Mirrors π (List.Forall₂ (Link π)) (inner a) (inner' b))
    {outer outer' context context' : Value} (ho : Resolved π "name" outer outer')
    (hc : Near π context context') (position : Nat) (hv : Link π v w) :
    Mirrors π (fun r r' => List.Forall₂ (Link π) r.1 r'.1 ∧ LiftedPair π r.2 r'.2)
      (lift inner outer context position v) (lift inner' outer' context' position w) := by
  refine .bind (follows_shown_name ho) fun n n' hn => ?_
  obtain rfl := hn
  refine .bind (follows_field hv.near "name") fun a b hab => ?_
  refine .bind (follows_shown_name hab) fun m m' hm => ?_
  obtain rfl := hm
  refine .bind (follows_setField hv ⟨rfl, .inr ⟨_, rfl⟩⟩) fun _ _ _ => ?_
  refine .bind (follows_setField hv hc) fun _ _ _ => ?_
  refine .bind (hinner v w hv) fun vs ws hvw => ?_
  refine .bind (follows_makeTypedef _ hv.near hc) fun x y hxy => ?_
  exact .pure ⟨List.rel_append hvw (.cons hxy .nil), rfl, hv, hxy⟩

theorem follows_flattenContainer (fuel : Nat) : ∀ {v w : Value}, Link π v w →
    Mirrors π (List.Forall₂ (Link π)) (flattenContainer fuel v) (flattenContainer fuel w) := by
  induction fuel with
  | zero => exact fun _ => .throw _
  | succ fuel ih =>
    intro v w hv
    refine .bind (follows_field hv.near "context") fun c d hcd => ?_
    refine .bind (follows_outerName hv) fun n m hn => ?_
    refine .bind (follows_nestedIn hv) fun ps qs hpq => ?_
    refine .bind (.mapM (Q := fun r r' => List.Forall₂ (Link π) r.1 r'.1 ∧ LiftedPair π r.2 r'.2)
      (fun p q hpq => ?_) hpq) fun ls ls' hl => ?_
    · obtain ⟨i, a⟩ := p
      obtain ⟨j, b⟩ := q
      obtain ⟨rfl, hab⟩ : j = i ∧ Link π a b := hpq
      exact follows_lift (fun a b hab => ih hab) hn hcd j hab
    · refine .bind (.forM (fun l l' hl => follows_detach hv hl) (List.rel_reverse ?_))
        fun _ _ _ => .pure ?_
      · rw [List.forall₂_map_left_iff, List.forall₂_map_right_iff]
        exact hl.imp fun _ _ h => h.2
      · refine List.rel_append (List.rel_flatMap hl fun _ _ h => h.1) (.cons hv .nil)

theorem follows_flattenOne (fuel : Nat) (hv : Link π v w) :
    Mirrors π (List.Forall₂ (Link π)) (flattenOne fuel v) (flattenOne fuel w) := by
  cases fuel with
  | zero => exact .throw _
  | succ fuel =>
    refine .bind (follows_isContainer hv.near) fun b b' hb => ?_
    obtain rfl := hb
    cases b with
    | true => exact follows_flattenContainer fuel hv
    | false =>
      refine follows_ofOrigin ?_
      exact .bind (follows_hasForm hv.near .typedef) fun b b' _ => .pure (.cons hv .nil)

theorem follows_flatten (h : Links π v w) :
    Mirrors π (Links π) (flatten v) (flatten w) := by
  obtain ⟨vs, ws, rfl, rfl, hl⟩ := h
  refine .bind follows_steps fun n m hn => ?_
  obtain rfl := hn
  refine .bind (R := List.Forall₂ (Link π)) (.pure hl) fun vs ws hl => ?_
  refine .bind (.mapM (fun a b hab => follows_flattenOne _ hab) hl) fun ls ls' hls => .pure ?_
  exact ⟨_, _, rfl, rfl, List.rel_flatten hls⟩

/-! ### Filtering -/

theorem follows_isKept (hv : Link π v w) :
    Mirrors π Eq (isKept v) (isKept w) := by
  refine .bind (follows_hasForm hv.near .ignored) fun b b' hb => ?_
  obtain rfl := hb
  cases b with
  | true => exact .pure rfl
  | false =>
    refine .bind (follows_field hv.near "location") fun a b hab => ?_
    obtain rfl : b = a := hab
    cases b <;> exact .pure rfl

theorem follows_dropIgnored (hv : Link π v w) (hname : ∀ a b, Resolved π name a b ↔ Links π a b) :
    Mirrors π (fun _ _ => True) (dropIgnored v name) (dropIgnored w name) := by
  refine .get fun s t h => ?_
  refine .bind (follows_fieldItems hv.near fun a b => (hname a b).1) fun vs ws hvw => ?_
  refine follows_setField hv ((hname _ _).2 ⟨_, _, rfl, rfl, ?_⟩)
  refine List.rel_filter (fun a b hab => ?_) hvw
  simp [Graph.hasForm, h.form? hab.near]

theorem follows_dropParts (hv : Link π v w) :
    Mirrors π (fun _ _ => True) (dropParts v) (dropParts w) := by
  refine .get fun s t h => ?_
  rw [h.form? hv.near]
  split
  · rename_i name hname
    obtain ⟨form, -, hparts⟩ := Option.bind_eq_some_iff.1 hname
    refine follows_dropIgnored hv fun a b => ?_
    cases form <;> simp only [Form.parts?, Option.some.injEq, reduceCtorEq] at hparts <;>
      subst hparts <;> exact Iff.rfl
  · exact .pure trivial

theorem follows_filterIgnored (h : Links π v w) :
    Mirrors π (Links π) (filterIgnored v) (filterIgnored w) := by
  obtain ⟨vs, ws, rfl, rfl, hl⟩ := h
  refine .bind (R := List.Forall₂ (Link π)) (.pure hl) fun vs ws hl => ?_
  refine .bind (.filterM (fun a b hab => follows_isKept hab) hl) fun ks ks' hk => ?_
  exact .bind (.forM (fun a b hab => follows_dropParts hab) hk) fun _ _ _ =>
    .pure ⟨_, _, rfl, rfl, hk⟩

/-! ### Mentioning -/

theorem follows_build (kind : Pxd.Kind) (args : List Value) :
    Mirrors π Eq (build kind args) (build kind args) := follows_check _

theorem follows_namedType (name : Value) :
    Mirrors π Eq (namedType name) (namedType name) :=
  .bindEq (follows_build _ _) fun _ => follows_build _ _

theorem follows_declaration (type name : Value) :
    Mirrors π Eq (declaration type name) (declaration type name) :=
  .bindEq (follows_build _ _) fun _ => follows_build _ _

theorem follows_asInteger (n : Value) :
    Mirrors π Eq (asInteger n) (asInteger n) := by
  unfold asInteger
  split
  · exact .pure rfl
  · exact .pure rfl
  · split
    · exact .pure rfl
    · exact .throw _
  · exact .throw _

theorem follows_plainField (hv : Near π v w) (hname : ∀ a b, Resolved π name a b → b = a) :
    Mirrors π Eq (field v name) (field w name) :=
  (follows_field hv name).mono fun a b h => (hname a b h).symm

theorem follows_name (hv : Near π v w) :
    Mirrors π Eq (field v "name") (field w "name") :=
  follows_plainField hv fun _ _ h => h.1

theorem follows_structName (hv : Near π v w) :
    Mirrors π Eq (structName v) (structName w) := by
  refine .bindEq (follows_name hv) fun name => ?_
  refine follows_ofOrigin ?_
  exact .pure rfl

section

variable {sub sub' : Value → Work Value}
variable (hsub : ∀ a b, Near π a b → Mirrors π Eq (sub a) (sub' b))

include hsub

theorem follows_mentionSignature (hv : Near π v w) {each each' : Value → Work Unit}
    (heach : ∀ a b, Mirrors π (fun _ _ => True) (each a) (each' b)) :
    Mirrors π Eq (mentionSignature sub v each) (mentionSignature sub' w each') := by
  refine .bind (follows_fieldItems hv fun _ _ h => h) fun vs ws hvw => ?_
  refine .bindEq (.mapMEq (fun a b hab => .bind (heach a b) fun _ _ _ => hsub a b hab.near) hvw)
    fun args => ?_
  refine .bindEq (follows_build _ _) fun args => ?_
  refine .bind (follows_field hv "returns") fun a b hab => ?_
  exact .bindEq (hsub a b hab) fun returns => .pure rfl

theorem follows_mentionFunction (hv : Near π v w) :
    Mirrors π Eq (mentionFunction sub v) (mentionFunction sub' w) := by
  refine .bindEq (follows_name hv) fun name => ?_
  refine .bindEq (follows_mentionSignature hsub hv fun _ _ => .pure trivial) fun sig => ?_
  exact follows_build _ _

theorem follows_mentionStep (hv : Near π v w) :
    Mirrors π Eq (mentionStep sub v) (mentionStep sub' w) := by
  refine follows_ofOrigin ?_
  refine .get fun s t h => ?_
  rw [h.form? hv]
  cases hf : s.graph.form? v with
  | none => exact .pure rfl
  | some form =>
    cases form with
    | field =>
      refine .bindEq (follows_name hv) fun name => ?_
      refine .bind (follows_field hv "typ") fun a b hab => ?_
      exact .bindEq (hsub a b hab) fun type => follows_declaration type name
    | enumValue =>
      refine .bindEq (follows_name hv) fun name => ?_
      exact .bindEq (follows_build _ _) fun _ => follows_build _ _
    | struct => exact .bindEq (follows_structName hv) fun name => follows_namedType name
    | enumeration | union | typedef | fundamentalType =>
      exact .bindEq (follows_name hv) fun name => follows_namedType name
    | argument =>
      refine .bindEq (follows_name hv) fun name => ?_
      refine .bind (follows_field hv "typ") fun a b hab => ?_
      exact .bindEq (hsub a b hab) fun type => follows_build _ _
    | pointerType =>
      refine .bind (follows_field hv "typ") fun a b hab => ?_
      exact .bindEq (hsub a b hab) fun type => follows_build _ _
    | arrayType =>
      refine .bindEq (follows_plainField hv fun _ _ h => h) fun first => ?_
      refine .bindEq (follows_asInteger _) fun first => ?_
      refine .bindEq (follows_plainField hv fun _ _ h => h) fun last => ?_
      refine .bindEq (follows_asInteger _) fun last => ?_
      refine .bind (follows_field hv "typ") fun a b hab => ?_
      exact .bindEq (hsub a b hab) fun type => follows_build _ _
    | cvQualifiedType =>
      exact .bind (follows_field hv "typ") fun a b hab => hsub a b hab
    | functionType =>
      refine .bindEq (follows_mentionSignature hsub hv fun _ _ => .pure trivial) fun sig => ?_
      exact follows_build _ _
    | _ => exact .pure rfl

end

theorem follows_mention (fuel : Nat) : ∀ {v w : Value}, Near π v w →
    Mirrors π Eq (mention fuel v) (mention fuel w) := by
  induction fuel with
  | zero => exact fun _ => .throw _
  | succ fuel ih =>
    intro v w hv
    refine .bindEq (follows_mentionStep (fun _ _ hab => ih hab) hv) fun node => ?_
    split
    · refine follows_ofOrigin ?_
      refine .bind (follows_shown v w) fun _ _ _ => ?_
      exact .bind (follows_say _ _) fun _ _ _ => .pure rfl
    · exact .pure rfl

/-! ### Defining -/

section

variable {sub sub' : Value → Work Value}
variable (hsub : ∀ a b, Near π a b → Mirrors π Eq (sub a) (sub' b))

include hsub

theorem follows_defineAs (kind : Pxd.Kind) (hv : Near π v w) (held : String)
    (hheld : ∀ a b, Resolved π held a b → Links π a b) (keep : Value → Bool) :
    Mirrors π Eq (defineAs sub kind v held keep) (defineAs sub' kind w held keep) := by
  refine .bindEq (follows_name hv) fun name => ?_
  refine .bind (follows_fieldItems hv hheld) fun vs ws hvw => ?_
  refine .bindEq (.mapMEq (fun a b hab => hsub a b hab.near) hvw) fun stmts => ?_
  refine .bindEq (follows_build _ _) fun body => ?_
  exact .bindEq (follows_build _ _) fun _ => .pure rfl

theorem follows_defineTypedef (hv : Near π v w) :
    Mirrors π Eq (defineTypedef sub v) (defineTypedef sub' w) := by
  refine .bindEq (follows_name hv) fun name => ?_
  have hplain :
      Mirrors π Eq (field v "typ" >>= fun a => sub a >>= fun type => declaration type name)
      (field w "typ" >>= fun b => sub' b >>= fun type => declaration type name) :=
    .bind (follows_field hv "typ") fun a b hab =>
      .bindEq (hsub a b hab) fun type => follows_declaration type name
  refine .bind (follows_field hv "typ") fun _ _ _ => ?_
  refine follows_ofOrigin ?_
  refine .get fun _ _ _ => .bindEq hplain fun value => ?_
  exact .bindEq (follows_build _ _) fun _ => .pure rfl

theorem follows_defineStep (hv : Near π v w) (visit visit' : Value → Work (List Value)) :
    Mirrors π Eq (defineStep sub visit v) (defineStep sub' visit' w) := by
  refine follows_ofOrigin ?_
  refine .get fun s t h => ?_
  have hnone : Mirrors π Eq
      (shown v >>= fun x => say ("unhandled node in generic_visit: " ++ x) >>= fun _ =>
        pure ([] : List Value))
      (shown w >>= fun x => say ("unhandled node in generic_visit: " ++ x) >>= fun _ =>
        pure ([] : List Value)) :=
    .bind (follows_shown v w) fun _ _ _ => .bind (follows_say _ _) fun _ _ _ => .pure rfl
  rw [h.form? hv]
  cases hf : s.graph.form? v with
  | none => exact hnone
  | some form =>
    cases form with
    | struct | union => exact follows_defineAs hsub _ hv "members" (fun _ _ h => h) _
    | enumeration => exact follows_defineAs hsub _ hv "values" (fun _ _ h => h) _
    | function => exact .bindEq (follows_mentionFunction hsub hv) fun _ => .pure rfl
    | globalVariable =>
      refine .bindEq (follows_name hv) fun name => ?_
      refine .bind (follows_field hv "typ") fun a b hab => ?_
      refine .bindEq (hsub a b hab) fun type => ?_
      exact .bindEq (follows_declaration type name) fun _ => .pure rfl
    | typedef => exact follows_defineTypedef hsub hv
    | _ => exact hnone

end

theorem follows_define (fuel n : Nat) (hv : Near π v w) :
    Mirrors π Eq (define fuel n v) (define fuel n w) := by
  cases n with
  | zero => exact .throw _
  | succ n => exact follows_defineStep (fun _ _ hab => follows_mention fuel hab) hv _ _

theorem follows_isElsewhere (header : Value) (hv : Link π v w) :
    Mirrors π Eq (isElsewhere header v) (isElsewhere header w) := by
  refine .bindEq (follows_plainField hv.near fun _ _ h => h) fun location => ?_
  refine follows_ofOrigin ?_
  have hfile : Mirrors π Eq (fileOf location) (fileOf location) := by
    refine .bindEq (follows_items location) fun parts => ?_
    split
    · exact .pure rfl
    · exact .throw _
  split
  · exact .pure rfl
  · exact .pure rfl
  · refine .bindEq hfile fun file => ?_
    split
    · exact .pure rfl
    · exact .throw _
    · exact .throw _

theorem follows_moduleOf (header : Value) (h : Links π v w) :
    Mirrors π Eq (moduleOf v header) (moduleOf w header) := by
  obtain ⟨vs, ws, rfl, rfl, hl⟩ := h
  refine .bindEq follows_steps fun fuel => ?_
  refine .bind (R := List.Forall₂ (Link π)) (.pure hl) fun vs ws hl => ?_
  refine .bindEq (.mapMEq (fun a b hab => ?_) hl) fun stmts => ?_
  · refine .bindEq (follows_isElsewhere header hab) fun elsewhere => ?_
    cases elsewhere
    · exact follows_define fuel fuel hab.near
    · exact .pure rfl
  · refine .bindEq (follows_build _ _) fun block => ?_
    exact .bindEq (follows_build _ _) fun _ => follows_build _ _

theorem follows_code (d : Draft) : Mirrors π Eq d.code d.code :=
  .bind (.modify fun _ _ h => h.of_graph rfl rfl) fun _ _ _ => follows_check _

end PxdGen.Decl
