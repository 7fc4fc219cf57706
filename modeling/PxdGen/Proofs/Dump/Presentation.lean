import PxdGen.Proofs.Dump.Invariance
/-! # Ways to write down a dump

A dump may have its elements in any order and may name them by any keys. Neither changes the text
that is made of it, as long as the elements stand in an element that takes no parts, and none of
them says which program wrote the dump.
-/

namespace PxdGen.Dump

open Decl Decl.Work

/-- The events of a document: those of the elements in its root, between the start and the end of
the root. -/
def eventsOf (root : String) (attrs : List (String × String)) (blocks : List (List Xml.Event))
    (text : String) : List Xml.Event :=
  .start root attrs :: (blocks.flatten ++ [.stop root text])

variable {ρ : String → String} {document document' root text text' : String}
variable {attrs : List (String × String)} {blocks blocks' : List (List Xml.Event)}
variable {events : List Xml.Event} {header stem : Value} {code : String} {s : Session}

theorem gives_readDocument_of_codeOf (h : Gives (codeOf document header stem) {} code s) :
    ∃ s₀, Gives (readDocument document) {} () s₀ := by
  obtain ⟨vs, s₁, hparse, -⟩ := gives_bind.1 h
  obtain ⟨_, s₀, hread, -⟩ := gives_bind.1 hparse
  exact ⟨s₀, hread⟩

theorem sound_of_readDocument (hdocument : Xml.read document = .ok ⟨events, true⟩)
    (hread : ∀ ev ∈ events, isRead ev = true) (hids : (ids events).Nodup)
    (h : Gives (readDocument document) {} () s) : Sound events s := by
  have hevents := (gives_readDocument hdocument).1 h
  simpa using sound_empty.forM hread (by simpa using hids) hevents

/-! ### Another order -/

/-- The elements in the root are read in another order. -/
theorem exists_shuffled_of_perm (hroot : hasChildren root = false) (hperm : blocks.Perm blocks')
    (hblocks : ∀ block ∈ blocks, IsElement block)
    (hcontent : ∀ ev ∈ blocks.flatten, isContent ev = true) (hsection : root ≠ "CPP_DUMP")
    (hids : (ids (eventsOf root attrs blocks text)).Nodup)
    (h : Gives ((eventsOf root attrs blocks text).forM takeEvent) {} () s) :
    ∃ t π, Gives ((eventsOf root attrs blocks' text').forM takeEvent) {} () t ∧
      Sound (eventsOf root attrs blocks' text') t ∧ Shuffled id π s t := by
  obtain ⟨s₁, hstart, h⟩ := gives_forM_cons.1 h
  obtain ⟨s₂, hinner, hstop⟩ := gives_forM_append.1 h
  obtain ⟨s₃, hend, hnil⟩ := gives_forM_cons.1 hstop
  obtain rfl := gives_forM_nil.1 hnil
  have hread₁ : isRead (.start root attrs) = true := by simpa [isRead] using hsection
  have hread : ∀ ev ∈ blocks.flatten, isRead ev = true := fun ev hev =>
    isRead_of_isContent (hcontent ev hev)
  have hids₀ : (ids ([.start root attrs] ++ blocks.flatten ++ [.stop root text])).Nodup := hids
  have hids₁ := nodup_ids_left hids₀
  have hids₂ := nodup_ids_of_perm (hperm.flatten.append_left [.start root attrs]) hids₁
  have hs₁ : Sound [.start root attrs] s₁ := sound_empty.takeEvent hread₁ (nodup_ids_left hids₁)
    hstart
  have hs₁' : s₁.context = [] := by
    have hends : Ends root s₁.context [] := sound_empty.ends_start hread₁ hstart
    rw [Ends, hroot] at hends
    exact hends.symm
  have hself : Shuffled id id s₁ s₁ :=
    Shuffled.empty.self_forM sound_empty rfl (by simpa using hread₁) (nodup_ids_left hids₁)
      (gives_forM_cons.2 ⟨s₁, hstart, gives_forM_nil.2 rfl⟩)
  obtain ⟨t₂, π, hinner', hshuffled⟩ :=
    Shuffled.perm hperm hs₁ hself hs₁' hblocks hcontent hids₁ hinner
  obtain ⟨context, -, rfl⟩ := gives_stop_cases (hs₁.forM hread hids₁ hinner).closed hend
  have ht₂ := hs₁.forM (fun ev hev => hread ev (hperm.flatten.mem_iff.2 hev)) hids₂ hinner'
  have hends : Ends root t₂.context t₂.context := by
    rw [Ends, hroot]
    rfl
  have hend' : Gives ([Xml.Event.stop root text'].forM takeEvent) t₂ () _ :=
    gives_forM_cons.2 ⟨_, gives_stop ht₂.closed hends, gives_forM_nil.2 rfl⟩
  exact ⟨_, π, gives_forM_cons.2 ⟨s₁, hstart, gives_forM_append.2 ⟨t₂, hinner', hend'⟩⟩,
    ht₂.ends hends, { hshuffled with }⟩

/-! ### Other keys -/

theorem ids_map_rename (events : List Xml.Event) :
    ids (events.map (renameEvent ρ)) = (ids events).map ρ := by
  rw [ids, ids, List.filterMap_map, List.map_filterMap]
  congr 1
  funext ev
  cases ev with
  | start tag attrs => exact lookup_map_value (renameValue ρ tag) attrs "id"
  | stop tag text => rfl

theorem exists_shuffled_of_rename (hρ : ∀ k, Text.IsKeyText (ρ k)) (hinj : Function.Injective ρ)
    (hread : ∀ ev ∈ events, isRead ev = true) (hids : (ids events).Nodup)
    (h : Gives (events.forM takeEvent) {} () s) :
    ∃ t, Gives ((events.map (renameEvent ρ)).forM takeEvent) {} () t ∧
      Sound (events.map (renameEvent ρ)) t ∧ Shuffled ρ id s t := by
  have hevents : List.Forall₂ (RenamedEvent ρ) events (events.map (renameEvent ρ)) := by
    rw [List.forall₂_map_right_iff, List.forall₂_same]
    exact fun ev _ => renamedEvent_rename hρ ev
  have hids' : (ids (events.map (renameEvent ρ))).Nodup := by
    rw [ids_map_rename]
    exact hids.map hinj
  have hread' : ∀ ev ∈ events.map (renameEvent ρ), isRead ev = true := by
    rw [List.forall_mem_map]
    exact fun ev hev => (renamedEvent_rename hρ ev).isRead (hread ev hev)
  obtain ⟨t, h', hshuffled⟩ := Shuffled.empty.forM sound_empty sound_empty rfl rfl hevents hread
    hids hids' h
  exact ⟨t, h', sound_empty.forM hread' hids' h', hshuffled⟩

/-- **The text of a dump depends neither on the order of its elements nor on its keys.** The root
must not take parts and its elements must not set the revision if they trade places. -/
theorem gives_codeOf_of_presentation
    (hdocument : Xml.read document = .ok ⟨eventsOf root attrs blocks text, true⟩)
    (hblocks : ∀ block ∈ blocks, IsElement block)
    (hids : (ids (eventsOf root attrs blocks text)).Nodup)
    (hglobal : (eventsOf root attrs blocks text).countP isGlobalStart = 1)
    (hsections : ∀ ev ∈ eventsOf root attrs blocks text, isRead ev = true)
    (hcode : Gives (codeOf document header stem) {} code s) :
    (hasChildren root = false → (∀ ev ∈ blocks.flatten, isContent ev = true) →
      ∀ document' blocks' text', blocks.Perm blocks' →
        Xml.read document' = .ok ⟨eventsOf root attrs blocks' text', true⟩ →
        ∃ t, Gives (codeOf document' header stem) {} code t) ∧
    ∀ document' ρ, Function.Injective ρ → (∀ k, Text.IsKeyText (ρ k)) →
      Xml.read document' = .ok ⟨(eventsOf root attrs blocks text).map (renameEvent ρ), true⟩ →
      ∃ t, Gives (codeOf document' header stem) {} code t := by
  obtain ⟨s₀, hread⟩ := gives_readDocument_of_codeOf hcode
  have hs := sound_of_readDocument hdocument hsections hids hread
  have hevents := (gives_readDocument hdocument).1 hread
  constructor
  · intro hroot hcontent document' blocks' text' hperm hdocument'
    have hsection : root ≠ "CPP_DUMP" := by
      simpa [isRead] using hsections (.start root attrs) List.mem_cons_self
    obtain ⟨t, π, hevents', ht, hshuffled⟩ := exists_shuffled_of_perm hroot hperm hblocks hcontent
      hsection hids hevents
    exact hshuffled.gives_codeOf hs ht hglobal.le hread ((gives_readDocument hdocument').2 hevents')
      hcode
  · intro document' ρ hinj hρ hdocument'
    obtain ⟨t, hevents', ht, hshuffled⟩ := exists_shuffled_of_rename hρ hinj hsections hids hevents
    exact hshuffled.gives_codeOf hs ht hglobal.le hread ((gives_readDocument hdocument').2 hevents')
      hcode

/-! ### A dump with a variable -/

/-- A namespace with a variable, the file and the type of the variable, under keys of some kind. -/
def variableElements (ρ : String → String) : List String := [
  "<Namespace id='" ++ ρ "n" ++ "' name='::' members='" ++ ρ "v" ++ "'/>",
  "<File id='" ++ ρ "f" ++ "' name='a'/>",
  "<FundamentalType id='" ++ ρ "t" ++ "' name='int' size='4' align='4'/>",
  "<Variable id='" ++ ρ "v" ++ "' name='x' type='" ++ ρ "t" ++ "' context='" ++ ρ "n" ++
    "' location='" ++ ρ "f" ++ ":1'/>"]

def dumpOf (elements : List String) : String := "<D>" ++ String.join elements ++ "</D>"

def variableBlocks : List (List Xml.Event) := [
  [.start "Namespace" [("id", "n"), ("name", "::"), ("members", "v")], .stop "Namespace" ""],
  [.start "File" [("id", "f"), ("name", "a")], .stop "File" ""],
  [.start "FundamentalType" [("id", "t"), ("name", "int"), ("size", "4"), ("align", "4")],
    .stop "FundamentalType" ""],
  [.start "Variable" [("id", "v"), ("name", "x"), ("type", "t"), ("context", "n"),
    ("location", "f:1")], .stop "Variable" ""]]

def isKeyChar (c : Char) : Bool := !Text.isBlank c && c != ':' && c != '_' && c != '.'

/-- A character that can stand in a key, or any other one by its number. -/
def spellChar (c : Char) : List Char :=
  if isKeyChar c then [c] else List.replicate c.toNat '_' ++ ['.']

/-- A key for each text. -/
def spell (k : String) : String := String.ofList ('k' :: k.toList.flatMap spellChar)

theorem spellChar_append_inj {c d : Char} {as bs : List Char}
    (h : spellChar c ++ as = spellChar d ++ bs) : c = d ∧ as = bs := by
  have hMixed : ∀ {c d : Char} {x y : List Char}, isKeyChar c = true → ¬ isKeyChar d = true →
      c :: x ≠ spellChar d ++ y := by
    intro c d x y hc hd h
    rw [spellChar, if_neg hd] at h
    cases hn : d.toNat <;> rw [hn] at h <;> obtain ⟨rfl, -⟩ := List.cons.inj h <;>
      exact absurd hc (by decide)
  have hLines : ∀ m n, List.replicate m '_' ++ '.' :: as = List.replicate n '_' ++ '.' :: bs →
      m = n ∧ as = bs := by
    intro m
    induction m with
    | zero => intro n h; cases n <;> simp_all [List.replicate_succ]
    | succ m ih =>
      intro n h
      cases n with
      | zero => simp [List.replicate_succ] at h
      | succ n => simpa using ih n (by simpa [List.replicate_succ] using h)
  by_cases hc : isKeyChar c = true <;> by_cases hd : isKeyChar d = true
  · simpa [spellChar, hc, hd] using h
  · exact absurd (by simpa [spellChar, hc] using h) (hMixed (x := as) (y := bs) hc hd)
  · exact absurd (by simpa [spellChar, hd] using h.symm) (hMixed (x := bs) (y := as) hd hc)
  · obtain ⟨hn, h⟩ := hLines _ _ (by simpa [spellChar, hc, hd] using h)
    exact ⟨Char.toNat_inj.1 hn, h⟩

theorem spell_injective : Function.Injective spell := by
  have hflat : Function.Injective (List.flatMap spellChar) := by
    intro as bs h
    have hne : ∀ c, spellChar c ≠ [] := fun c => by unfold spellChar; split <;> simp
    induction as generalizing bs with
    | nil =>
      cases bs with
      | nil => rfl
      | cons b bs => exact absurd h.symm (by simp [hne])
    | cons a as ih =>
      cases bs with
      | nil => exact absurd h (by simp [hne])
      | cons b bs =>
        obtain ⟨rfl, hRest⟩ := spellChar_append_inj h
        rw [ih hRest]
  intro k l h
  exact String.toList_inj.1 (hflat (List.cons.inj (String.ofList_inj.1 h)).2)

theorem isKeyText_spell (k : String) : Text.IsKeyText (spell k) := by
  refine ⟨fun h => ?_, fun c hc => ?_⟩
  · have := congrArg String.toList h
    simp [spell] at this
  · have hKey : isKeyChar c = true ∨ c = '_' ∨ c = '.' := by
      simp only [spell, String.toList_ofList, List.mem_cons, List.mem_flatMap, spellChar] at hc
      obtain rfl | ⟨d, -, hd⟩ := hc
      · exact .inl rfl
      · split at hd <;> simp at hd <;> grind
    rcases hKey with h | rfl | rfl
    · simp only [isKeyChar, Bool.and_eq_true, Bool.not_eq_true', bne_iff_ne] at h
      exact ⟨h.1.1.1, h.1.1.2⟩
    · decide
    · decide

theorem exists_gives_of_toOption {x : Work α} {a : α} (h : (outcome x s).1.toOption = some a) :
    ∃ s', Gives x s a s' := by
  cases hx : outcome x s with
  | mk r s' =>
    rw [hx] at h
    cases r with
    | error f => cases h
    | ok b =>
      obtain rfl := Option.some.inj h
      exact ⟨s', gives_iff_outcome.2 hx⟩

def variableText : String := Pxd.heading ++ "cdef extern from \"a\":\n\n    int x\n\n"

/-- The text stays when the elements are turned around, and when all keys are spelled anew. -/
theorem gives_codeOf_of_presentation_variable :
    (∃ s, Gives (codeOf (dumpOf (variableElements id)) (.text "a") (.text "b")) {} variableText
      s) ∧
    (∃ t, Gives (codeOf (dumpOf (variableElements id).reverse) (.text "a") (.text "b")) {}
      variableText t) ∧
    ∃ t, Gives (codeOf (dumpOf (variableElements spell)) (.text "a") (.text "b")) {} variableText
      t := by
  have hdocument : Xml.read (dumpOf (variableElements id)) =
      .ok ⟨eventsOf "D" [] variableBlocks "", true⟩ := read_of_toOption (by decide +kernel)
  have hturned : Xml.read (dumpOf (variableElements id).reverse) =
      .ok ⟨eventsOf "D" [] variableBlocks.reverse "", true⟩ := read_of_toOption (by decide +kernel)
  have hspelled : Xml.read (dumpOf (variableElements spell)) =
      .ok ⟨(eventsOf "D" [] variableBlocks "").map (renameEvent spell), true⟩ :=
    read_of_toOption (by decide +kernel)
  obtain ⟨s, hcode⟩ := exists_gives_of_toOption (s := {}) (a := variableText)
    (x := codeOf (dumpOf (variableElements id)) (.text "a") (.text "b")) (by decide +kernel)
  have hblocks : ∀ block ∈ variableBlocks, IsElement block := by
    simp only [variableBlocks, List.forall_mem_cons, List.not_mem_nil, false_imp_iff, implies_true,
      and_true]
    exact ⟨.mk _ _ _ [] (by simp), .mk _ _ _ [] (by simp), .mk _ _ _ [] (by simp),
      .mk _ _ _ [] (by simp)⟩
  obtain ⟨hperm, hrename⟩ := gives_codeOf_of_presentation hdocument hblocks (by decide +kernel)
    (by decide +kernel) (by decide +kernel) hcode
  exact ⟨⟨s, hcode⟩, hperm rfl (by decide) _ _ _ (List.reverse_perm _).symm hturned,
    hrename _ spell spell_injective isKeyText_spell hspelled⟩

/-! ### Where the order matters -/

/-- An enumeration around everything, with two constants. -/
def valuesDump (first second : String) : String :=
  "<Enumeration id='e' name='E' size='4' align='4' context='n' location='f:1'>" ++
  "<Namespace id='n' name='::' members='e'/><File id='f' name='t'/><EnumValue name='" ++ first ++
  "' init='0'/><EnumValue name='" ++ second ++ "' init='0'/></Enumeration>"

/-- A namespace and two revisions. -/
def revisionsDump (first second : String) : String :=
  "<D><Namespace id='n' name='::' members=''/><GCC_XML cvs_revision='" ++ first ++
  "'/><GCC_XML cvs_revision='" ++ second ++ "'/></D>"

/-- Two texts that differ. -/
def areApart : Option String → Option String → Bool
  | some a, some b => a != b
  | _, _ => false

theorem exists_ne_of_areApart {x y : Work String} {t : Session}
    (h : areApart (outcome x s).1.toOption (outcome y t).1.toOption = true) :
    ∃ a b s' t', Gives x s a s' ∧ Gives y t b t' ∧ a ≠ b := by
  cases hx : (outcome x s).1.toOption with
  | none =>
    rw [hx] at h
    cases h
  | some a =>
    cases hy : (outcome y t).1.toOption with
    | none =>
      rw [hx, hy] at h
      cases h
    | some b =>
      obtain ⟨s', hs⟩ := exists_gives_of_toOption hx
      obtain ⟨t', ht⟩ := exists_gives_of_toOption hy
      exact ⟨a, b, s', t', hs, ht, by simpa [areApart, hx, hy] using h⟩

/-- Constants in the root are written in the order in which they stand, and of two revisions the
last one counts, which must not be an old one with three parts. -/
theorem codeOf_depends_on_order :
    (∃ code code' s s', Gives (codeOf (valuesDump "A" "B") (.text "t") (.text "p")) {} code s ∧
      Gives (codeOf (valuesDump "B" "A") (.text "t") (.text "p")) {} code' s' ∧ code ≠ code') ∧
    (∃ code s, Gives (codeOf (revisionsDump "1.1.1" "2.0") (.text "t") (.text "p")) {} code s) ∧
    ∀ code s, ¬ Gives (codeOf (revisionsDump "2.0" "1.1.1") (.text "t") (.text "p")) {} code s := by
  refine ⟨exists_ne_of_areApart (by decide +kernel), ?_, ?_⟩
  · obtain ⟨code, h⟩ := exists_gives_of_isOk (s := {})
      (x := codeOf (revisionsDump "1.1.1" "2.0") (.text "t") (.text "p")) (by decide +kernel)
    exact ⟨code, _, h⟩
  · intro code s h
    have hfails :
        (outcome (codeOf (revisionsDump "2.0" "1.1.1") (.text "t") (.text "p")) {}).1.toBool =
        false := by decide +kernel
    rw [gives_iff_outcome.1 h] at hfails
    cases hfails

end PxdGen.Dump
