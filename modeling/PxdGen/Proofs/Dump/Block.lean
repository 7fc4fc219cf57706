import PxdGen.Proofs.Dump.Parallel
/-! # Reading an element as a whole

An element is read from its start to its end, with all elements inside it. Two readings of one
element, from different sessions and under different keys, stay side by side, and what is being
filled when an element ends is what was being filled when it started.
-/

namespace PxdGen.Dump

open Decl Decl.Work

variable {ρ : String → String} {b c s s' t : Session} {tag : String}
variable {attrs attrs' : List (String × String)} {done done' : List Xml.Event}

variable {as bs events : List Xml.Event} {E E' : Effect}

/-! ### One event -/

/-- An event, and the same event under other keys. -/
inductive RenamedEvent (ρ : String → String) : Xml.Event → Xml.Event → Prop
  | start {tag : String} {attrs attrs' : List (String × String)} (h : Renamed ρ tag attrs attrs') :
    RenamedEvent ρ (.start tag attrs) (.start tag attrs')
  | stop (tag text text' : String) : RenamedEvent ρ (.stop tag text) (.stop tag text')

theorem RenamedEvent.refl (ev : Xml.Event) : RenamedEvent id ev ev := by
  cases ev with
  | start tag attrs => exact .start (.refl tag attrs)
  | stop tag text => exact .stop tag text text

theorem renamedEvent_rename (hρ : ∀ k, Text.IsKeyText (ρ k)) (ev : Xml.Event) :
    RenamedEvent ρ ev (renameEvent ρ ev) := by
  cases ev with
  | start tag attrs => exact .start (renamed_rename hρ tag attrs)
  | stop tag text => exact .stop tag text text

theorem RenamedEvent.isRead {ev ev' : Xml.Event} (h : RenamedEvent ρ ev ev')
    (hread : isRead ev = true) : Dump.isRead ev' = true := by
  cases h with
  | start _ => exact hread
  | stop => rfl

theorem ids_append (as bs : List Xml.Event) : ids (as ++ bs) = ids as ++ ids bs :=
  List.filterMap_append

theorem nodup_ids_left (h : (ids (as ++ bs)).Nodup) : (ids as).Nodup := by
  rw [ids_append] at h
  exact (List.nodup_append.1 h).1

theorem fresh_of_nodup (h : (ids (done ++ [.start tag attrs])).Nodup) (a : String)
    (ha : attrs.lookup "id" = some a) : a ∉ ids done := by
  intro hmem
  rw [ids_append, List.nodup_append] at h
  exact h.2.2 a hmem a (by simp [ids, idOf?, ha]) rfl

theorem EffectPair.ends (hE : EffectPair ρ tag attrs attrs' E E')
    (h : Leads tag E s s') : Ends tag s'.context s.context := by
  rw [Ends, hE.context h]
  split
  · exact ⟨_, rfl⟩
  · rfl

namespace Parallel

theorem part (h : Parallel ρ b c s t) {slot : String} (hslot : slot = "arguments" ∨ slot = "values")
    {form : Form} {e e' : Entry} (hnew : NewPair ρ form e e')
    (hleads : Leads tag (.part slot e) s s') :
    ∃ t', Leads tag (.part slot e') t t' ∧ Parallel ρ b c s' t' := by
  cases hleads with
  | @part _ p _ form' _ _ _ hcontext hform htakes hitems =>
    have hlinks := h.context
    rw [hcontext] at hlinks
    obtain ⟨q, rest', ⟨i, j, hij, hi, rfl⟩, -, hcontext'⟩ := List.forall₂_cons_left_iff.1 hlinks
    cases hi
    obtain ⟨e₀, he₀, hf⟩ := Option.map_eq_some_iff.1 hform
    obtain ⟨e₁, he₁, hpairs⟩ := h.entry _ _ e₀ hij he₀
    rw [Graph.field?_of_get? _ he₀] at hitems
    obtain ⟨w, hw, hC⟩ := hpairs.get? hitems
    rw [Unresolved, if_pos hslot] at hC
    obtain ⟨vs, ws, hvs, rfl, hl⟩ := hC
    cases hvs
    have hform' : t.graph.form? (.link j) = some form' := by
      rw [Graph.form?_of_get? _ he₁, hpairs.form, hf]
    exact ⟨_, .part e' hcontext' hform' htakes (by rw [Graph.field?_of_get? _ he₁, hw]),
      h.attach hij hslot hl hnew⟩

theorem leads (h : Parallel ρ b c s t) (hs : Sound done s) (ht : Sound done' t)
    (hr : Renamed ρ tag attrs attrs') (hkey : ∀ a, attrs.lookup "id" = some a → a ∉ ids done)
    (hkey' : ∀ a, attrs'.lookup "id" = some a → a ∉ ids done')
    (hE : EffectPair ρ tag attrs attrs' E E') (hleads : Leads tag E s s') :
        ∃ t', Leads tag E' t t' ∧ Parallel ρ b c s' t' := by
  cases hE with
  | none =>
    cases hleads
    exact ⟨t, .none t, h⟩
  | revision =>
    cases hleads
    exact ⟨_, .revision _ t, { h with revision := .inr rfl }⟩
  | declaration hnew =>
    cases hleads
    exact ⟨_, .declaration _ _ t, h.declare hs ht hr hkey hkey' hnew⟩
  | argument hnew => exact h.part (.inl rfl) hnew hleads
  | value hnew => exact h.part (.inr rfl) hnew hleads

theorem stop (h : Parallel ρ b c s t) {context : List Value} (hends : Ends tag s.context context) :
    ∃ context', Ends tag t.context context' ∧
      Parallel ρ b c { s with context := context, openText := none, openKey := none }
        { t with context := context', openText := none, openKey := none } := by
  have hlinks := h.context
  unfold Ends at hends ⊢
  cases hc : hasChildren tag with
  | true =>
    rw [hc, if_pos rfl] at hends
    obtain ⟨v, hv⟩ := hends
    rw [hv] at hlinks
    obtain ⟨w, context', -, hrest, hw⟩ := List.forall₂_cons_left_iff.1 hlinks
    exact ⟨context', by simpa using ⟨w, hw⟩, { h with context := hrest }⟩
  | false =>
    rw [hc, if_neg Bool.false_ne_true] at hends
    subst hends
    exact ⟨t.context, by simp, { h with }⟩

/-- **A step of two readings.** -/
theorem takeEvent (h : Parallel ρ b c s t) (hs : Sound done s) (ht : Sound done' t)
    {ev ev' : Xml.Event} (hev : RenamedEvent ρ ev ev') (hread : isRead ev = true)
    (hids : (ids (done ++ [ev])).Nodup) (hids' : (ids (done' ++ [ev'])).Nodup)
    (hgives : Gives (takeEvent ev) s () s') :
    ∃ t', Gives (Dump.takeEvent ev') t () t' ∧ Parallel ρ b c s' t' := by
  cases hev with
  | @start tag attrs attrs' hr =>
    obtain ⟨E, E', s₁, k, hE, hleads, rfl, hrun⟩ :=
      hr.startElement (by simpa [isRead] using hread) hs.origin (fun _ => hs.closed) hs.context
        hgives
    obtain ⟨t₁, hleads', hparallel⟩ :=
      h.leads hs ht hr (fresh_of_nodup hids) (fresh_of_nodup hids') hE hleads
    obtain ⟨k', hgives'⟩ := hrun t t₁ ht.origin ht.closed hleads'
    exact ⟨_, hgives', { hparallel with }⟩
  | stop tag text text' =>
    obtain ⟨context, hends, rfl⟩ := gives_stop_cases hs.closed hgives
    obtain ⟨context', hends', hparallel⟩ := h.stop hends
    exact ⟨_, gives_stop ht.closed hends', hparallel⟩

/-- **Two readings of the same events.** -/
theorem forM {events events' : List Xml.Event}
    (hevents : List.Forall₂ (RenamedEvent ρ) events events') (h : Parallel ρ b c s t)
    (hs : Sound done s) (ht : Sound done' t) (hread : ∀ ev ∈ events, isRead ev = true)
    (hids : (ids (done ++ events)).Nodup) (hids' : (ids (done' ++ events')).Nodup)
    (hgives : Gives (events.forM Dump.takeEvent) s () s') :
    ∃ t', Gives (events'.forM Dump.takeEvent) t () t' ∧ Parallel ρ b c s' t' := by
  induction hevents generalizing s t done done' with
  | nil =>
    obtain rfl := gives_forM_nil.1 hgives
    exact ⟨t, gives_forM_nil.2 rfl, h⟩
  | @cons ev ev' events events' hev _ ih =>
    obtain ⟨s₁, hfirst, hrest⟩ := gives_forM_cons.1 hgives
    rw [List.append_cons] at hids hids'
    have hev₁ := hread ev List.mem_cons_self
    obtain ⟨t₁, hfirst', hnext⟩ := h.takeEvent hs ht hev hev₁ (nodup_ids_left hids)
      (nodup_ids_left hids') hfirst
    obtain ⟨t', hrest', hparallel⟩ := ih hnext (hs.takeEvent hev₁ (nodup_ids_left hids) hfirst)
      (ht.takeEvent (hev.isRead hev₁) (nodup_ids_left hids') hfirst')
      (fun e he => hread e (List.mem_cons_of_mem ev he)) hids hids' hrest
    exact ⟨t', gives_forM_cons.2 ⟨t₁, hfirst', hrest'⟩, hparallel⟩

end Parallel

/-! ### Revisions -/

/-- Events that neither belong to a section nor say which program wrote the dump. -/
def isContent : Xml.Event → Bool
  | .start tag _ => tag != "CPP_DUMP" && tag != "GCC_XML"
  | .stop _ _ => true

theorem isRead_of_isContent {ev : Xml.Event} (h : isContent ev = true) : isRead ev = true := by
  cases ev with
  | start tag attrs => exact (Bool.and_eq_true_iff.1 h).1
  | stop tag text => rfl

/-- **Only one tag sets the revision.** -/
theorem Sound.revision_forM (hs : Sound done s)
    (hcontent : ∀ ev ∈ events, isContent ev = true) (hids : (ids (done ++ events)).Nodup)
    (hgives : Gives (events.forM Dump.takeEvent) s () s') : s'.revision = s.revision := by
  induction events generalizing done s with
  | nil =>
    obtain rfl := gives_forM_nil.1 hgives
    rfl
  | cons ev events ih =>
    obtain ⟨s₁, hfirst, hrest⟩ := gives_forM_cons.1 hgives
    rw [List.append_cons] at hids
    have hev := hcontent ev List.mem_cons_self
    have hs₁ := hs.takeEvent (isRead_of_isContent hev) (nodup_ids_left hids) hfirst
    rw [ih hs₁ (fun e he => hcontent e (List.mem_cons_of_mem ev he)) hids hrest]
    cases ev with
    | start tag attrs =>
      simp only [isContent, Bool.and_eq_true, bne_iff_ne] at hev
      obtain ⟨E, E', s₂, k, hE, hleads, rfl, -⟩ :=
        (Renamed.refl tag attrs).startElement hev.1 hs.origin (fun _ => hs.closed) hs.context hfirst
      cases hleads with
      | revision =>
        cases hE with
        | revision htag => exact absurd htag hev.2
      | _ => rfl
    | stop tag text =>
      obtain ⟨context, -, rfl⟩ := gives_stop_cases hs.closed hfirst
      rfl

/-! ### Elements -/

/-- The events of an element: its start, those of the elements in it, and its end. -/
inductive IsElement : List Xml.Event → Prop
  | mk (tag : String) (attrs : List (String × String)) (text : String)
    (inner : List (List Xml.Event)) (hinner : ∀ events ∈ inner, IsElement events) :
    IsElement (.start tag attrs :: (inner.flatten ++ [.stop tag text]))

theorem gives_forM_append {α : Type} {f : α → Work Unit} {as bs : List α} :
    Gives ((as ++ bs).forM f) s () s' ↔ ∃ s₁, Gives (as.forM f) s () s₁ ∧
    Gives (bs.forM f) s₁ () s' := by
  induction as generalizing s with
  | nil => simp
  | cons a as ih =>
    rw [List.cons_append]
    simp only [gives_forM_cons, ih]
    constructor
    · rintro ⟨s₁, ha, s₂, has, hbs⟩
      exact ⟨s₂, ⟨s₁, ha, has⟩, hbs⟩
    · rintro ⟨s₂, ⟨s₁, ha, has⟩, hbs⟩
      exact ⟨s₁, ha, s₂, has, hbs⟩

theorem Sound.ends_start (hs : Sound done s) (hread : isRead (.start tag attrs) = true)
    (hgives : Gives (Dump.takeEvent (.start tag attrs)) s () s') :
    Ends tag s'.context s.context := by
  obtain ⟨E, E', s₁, k, hE, hleads, rfl, -⟩ := (Renamed.refl tag attrs).startElement
    (by simpa [isRead] using hread) hs.origin (fun _ => hs.closed) hs.context hgives
  have hends : Ends tag s₁.context s.context := hE.ends hleads
  exact hends

theorem Ends.unique {before after after' : List Value} (h : Ends tag before after)
    (h' : Ends tag before after') : after' = after := by
  unfold Ends at h h'
  split at h
  · rename_i hc
    rw [if_pos hc] at h'
    obtain ⟨v, hv⟩ := h
    obtain ⟨w, hw⟩ := h'
    exact (List.cons.inj (hw.symm.trans hv)).2
  · rename_i hc
    rw [if_neg hc] at h'
    rw [h, h']

/-- Reading the events keeps what is being filled. -/
def Balanced (events : List Xml.Event) : Prop :=
  ∀ ⦃done : List Xml.Event⦄ ⦃s s' : Session⦄, Sound done s → (∀ ev ∈ events, isRead ev = true) →
    (ids (done ++ events)).Nodup → Gives (events.forM takeEvent) s () s' → s'.context = s.context

theorem Balanced.append (ha : Balanced as) (hb : Balanced bs) : Balanced (as ++ bs) := by
  intro done s s' hs hread hids hgives
  rw [List.forall_mem_append] at hread
  rw [← List.append_assoc] at hids
  obtain ⟨s₁, hfirst, hrest⟩ := gives_forM_append.1 hgives
  have hs₁ := hs.forM hread.1 (nodup_ids_left hids) hfirst
  exact (hb hs₁ hread.2 hids hrest).trans (ha hs hread.1 (nodup_ids_left hids) hfirst)

theorem balanced_flatten {blocks : List (List Xml.Event)} (h : ∀ block ∈ blocks, Balanced block) :
    Balanced blocks.flatten := by
  induction blocks with
  | nil =>
    intro done s s' _ _ _ hgives
    obtain rfl := gives_forM_nil.1 hgives
    rfl
  | cons block blocks ih =>
    exact (h block List.mem_cons_self).append (ih fun b hb => h b (List.mem_cons_of_mem block hb))

theorem IsElement.balanced (h : IsElement events) : Balanced events := by
  induction h with
  | mk tag attrs text inner _ ih =>
    intro done s s' hs hread hids hgives
    obtain ⟨s₁, hstart, hgives⟩ := gives_forM_cons.1 hgives
    obtain ⟨s₂, hinner, hstop⟩ := gives_forM_append.1 hgives
    rw [List.append_cons, ← List.append_assoc] at hids
    have hstartRead := hread _ List.mem_cons_self
    have hinnerRead : ∀ ev ∈ inner.flatten, isRead ev = true := fun ev hev =>
      hread ev (List.mem_cons_of_mem _ (List.mem_append_left _ hev))
    have hs₁ := hs.takeEvent hstartRead (nodup_ids_left (nodup_ids_left hids)) hstart
    have hs₂ := hs₁.forM hinnerRead (nodup_ids_left hids) hinner
    have hcontext := balanced_flatten ih hs₁ hinnerRead (nodup_ids_left hids) hinner
    obtain ⟨s₃, hend, hnil⟩ := gives_forM_cons.1 hstop
    obtain rfl := gives_forM_nil.1 hnil
    obtain ⟨context, hends, rfl⟩ := gives_stop_cases hs₂.closed hend
    -- the end takes off what the start has put on
    rw [hcontext] at hends
    exact (hs.ends_start hstartRead hstart).unique hends

end PxdGen.Dump
