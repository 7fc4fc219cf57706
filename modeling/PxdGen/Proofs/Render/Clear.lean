import Mathlib.Data.List.Chain
import PxdGen.Proofs.Declarator.Rendering
import PxdGen.Proofs.Render.Rules
/-! # Texts without the placeholder

What the rules write between the texts of the parts has no letter of the placeholder in it, so the
placeholder is in a text only if it is in the text of a part. The one rule that does more is the one
for function types, where every hole in a text is filled: a letter of the placeholder that stands
against a brace could come to stand against letters of what is filled in. A text is `Neat` if the
placeholder is not in it and, where it is to be filled, no letter stands against a brace from
outside.
-/

namespace PxdGen.Pxd

/-- Whether a character is neither a letter of the placeholder nor a brace. -/
def isPlain (c : Char) : Bool := !('\x7b' :: '\x7d' :: placeholder.toList).contains c

/-- Characters that can stand side by side in a text that is filled. -/
def Beside (a b : Char) : Prop :=
  (b = '\x7b' → isPlain a = true ∨ a = '\x7b') ∧ (a = '\x7d' → isPlain b = true ∨ b = '\x7d')

/-- A text without the placeholder that can be filled if `b` says so. -/
structure Neat (b : Bool) (l : List Char) : Prop where
  clear : ¬ placeholder.toList <:+: l
  chain : b = true → l.IsChain Beside

variable {b : Bool} {c : Char} {l x y : List Char}

theorem infix_append_cons (hc : c ∉ l) (h : l <:+: x ++ c :: y) : l <:+: x ∨ l <:+: y := by
  obtain ⟨before, after, h⟩ := h
  rw [List.append_assoc, List.append_eq_append_iff] at h
  rcases h with ⟨as, rfl, h⟩ | ⟨bs, -, h⟩
  · rcases List.append_eq_append_iff.1 h with ⟨cs, rfl, -⟩ | ⟨cs, rfl, hTail⟩
    · exact .inl ⟨before, cs, by simp⟩
    · cases cs with
      | nil => exact .inl ⟨before, [], by simp⟩
      | cons d cs =>
        cases hTail
        simp at hc
  · cases bs with
    | nil =>
      cases l with
      | nil => exact .inl List.nil_infix
      | cons d l =>
        cases h
        simp at hc
    | cons d bs =>
      cases h
      exact .inr ⟨bs, after, by simp⟩

theorem not_mem_placeholder (h : isPlain c = true ∨ c = '\x7b' ∨ c = '\x7d') :
    c ∉ placeholder.toList := by
  rcases h with h | rfl | rfl
  · intro hc
    simp [isPlain, hc] at h
  · decide
  · decide

namespace Neat

theorem nil : Neat b [] := ⟨by decide, fun _ => .nil⟩

theorem of_part (h : Neat b y) (hx : x <:+: y) : Neat b x :=
  ⟨fun hp => h.clear (hp.trans hx), fun hb => List.IsChain.infix (h.chain hb) hx⟩

theorem append_of_last (hx : Neat b x) (hy : Neat b y)
    (h : ∀ a ∈ x.getLast?, isPlain a = true ∨ a = '\x7b') : Neat b (x ++ y) := by
  constructor
  · cases hLast : x.getLast? with
    | none => simpa [List.getLast?_eq_none_iff.1 hLast] using hy.clear
    | some a =>
      have ha := h a hLast
      obtain ⟨x, rfl⟩ := List.getLast?_eq_some_iff.1 hLast
      rw [List.append_assoc, List.singleton_append]
      intro hp
      rcases infix_append_cons (not_mem_placeholder (ha.imp_right .inl)) hp with hp | hp
      · exact hx.clear (hp.trans (List.prefix_append _ _).isInfix)
      · exact hy.clear hp
  · refine fun hb => List.isChain_append.2 ⟨hx.chain hb, hy.chain hb, fun a ha d _ => ?_⟩
    refine ⟨fun _ => h a ha, ?_⟩
    rintro rfl
    exact absurd (h _ ha) (by decide)

theorem append_of_head (hx : Neat b x) (hy : Neat b y)
    (h : ∀ d ∈ y.head?, isPlain d = true ∨ d = '\x7d') : Neat b (x ++ y) := by
  constructor
  · cases y with
    | nil => simpa using hx.clear
    | cons d y =>
      intro hp
      rcases infix_append_cons (not_mem_placeholder ((h d rfl).imp_right .inr)) hp with hp | hp
      · exact hx.clear hp
      · exact hy.clear (hp.trans (List.suffix_cons _ _).isInfix)
  · refine fun hb => List.isChain_append.2 ⟨hx.chain hb, hy.chain hb, fun a _ d hd => ?_⟩
    refine ⟨?_, fun _ => h d hd⟩
    rintro rfl
    exact absurd (h _ hd) (by decide)

end Neat

theorem isChain_of_forall (h : ∀ c ∈ l, c ≠ '\x7b' ∧ c ≠ '\x7d') : l.IsChain Beside := by
  induction l with
  | nil => exact .nil
  | cons c l ih =>
    have hr : ∀ d ∈ l, d ≠ '\x7b' ∧ d ≠ '\x7d' := fun d hd => h d (by simp [hd])
    refine List.isChain_cons.2 ⟨fun d hd => ⟨fun hEq => ?_, fun hEq => ?_⟩, ih hr⟩
    · exact absurd hEq (hr d (List.mem_of_mem_head? hd)).1
    · exact absurd hEq (h c (by simp)).2

/-- A text of characters none of which begins the placeholder or is a brace. -/
theorem neat_of_forall (h : ∀ c ∈ l, c ∉ ['_', '\x7b', '\x7d']) : Neat b l := by
  refine ⟨fun hp => h '_' (hp.subset (by decide)) (by simp), fun _ => isChain_of_forall ?_⟩
  intro c hc
  have hNot := h c hc
  simp only [List.mem_cons, List.not_mem_nil, or_false, not_or] at hNot
  exact hNot.2

theorem neat_of_all (h : (l.all fun c => !(['_', '\x7b', '\x7d'].contains c)) = true) : Neat b l :=
  neat_of_forall fun c hc => by simpa using List.all_eq_true.1 h c hc

theorem neat_append_cons (hc : isPlain c = true) : Neat b (x ++ c :: y) ↔ Neat b x ∧ Neat b y := by
  constructor
  · exact fun h => ⟨h.of_part (List.prefix_append _ _).isInfix,
      h.of_part ((List.suffix_cons _ _).trans (List.suffix_append _ _)).isInfix⟩
  · rintro ⟨hx, hy⟩
    have hOne : Neat b [c] := neat_of_forall fun d hd => by
      obtain rfl := List.mem_singleton.1 hd
      intro hm
      simp only [List.mem_cons, List.not_mem_nil, or_false] at hm
      rcases hm with rfl | rfl | rfl <;> exact absurd hc (by decide)
    refine hx.append_of_head (hOne.append_of_last hy ?_) ?_ <;> simp [hc]

theorem neat_cons (hc : isPlain c = true) : Neat b (c :: y) ↔ Neat b y := by
  rw [← List.nil_append (c :: y), neat_append_cons hc]
  simp [Neat.nil]

theorem Neat.braced (h : Neat b l) : Neat b ('\x7b' :: (l ++ ['\x7d'])) := by
  have hOpen : Neat b ['\x7b'] := ⟨by decide, fun _ => by simp⟩
  have hClose : Neat b ['\x7d'] := ⟨by decide, fun _ => by simp⟩
  refine hOpen.append_of_last (h.append_of_head hClose ?_) ?_ <;> simp

/-- A text that keeps what stands on both sides of it apart. -/
def Separates (b : Bool) (sep : String) : Prop :=
  ∀ x y, Neat b x → Neat b y → Neat b (x ++ (sep.toList ++ y))

theorem separates_comma : Separates b ", " := fun x y hx hy => by
  simp (disch := decide) [neat_append_cons, neat_cons, hx, hy]

theorem separates_blank : Separates b " " := fun x y hx hy => by
  simp (disch := decide) [neat_append_cons, hx, hy]

theorem neat_intercalate {sep : String} {ts : List String} (hs : Separates b sep)
    (h : ∀ t ∈ ts, Neat b t.toList) : Neat b (sep.intercalate ts).toList := by
  induction ts with
  | nil => simpa using Neat.nil
  | cons t ts ih =>
    have hr := ih fun u hu => h u (by simp [hu])
    cases ts with
    | nil =>
      rw [String.intercalate_singleton]
      exact h t (by simp)
    | cons u ts =>
      rw [String.intercalate_cons_cons, String.toList_append, String.toList_append,
        List.append_assoc]
      exact hs _ _ (h t (by simp)) hr

/-- **Filling the holes of a text puts no placeholder in it.** -/
theorem Neat.fill {m f p : List Char} (hf : Neat b f) (hp : Neat true (x ++ p)) :
    Neat b (x ++ fill ('\x7b' :: (m ++ ['\x7d'])) f p) := by
  have hWeak : ∀ {l}, Neat true l → Neat b l := fun h => ⟨h.clear, fun _ => h.chain rfl⟩
  fun_induction Pxd.fill ('\x7b' :: (m ++ ['\x7d'])) f p generalizing x with
  | case1 => exact hWeak hp
  | case2 c rest hHole ih =>
    obtain ⟨z, hz⟩ := List.isPrefixOf_iff_prefix.1 hHole
    obtain ⟨rfl, rfl⟩ := List.cons.inj hz
    have hx : Neat b x := hWeak (hp.of_part (List.prefix_append _ _).isInfix)
    have hLast : ∀ a ∈ x.getLast?, isPlain a = true ∨ a = '\x7b' := fun a ha =>
      ((List.isChain_append.1 (hp.chain rfl)).2.2 a ha _ rfl).1 rfl
    have hTail : Neat true ('\x7d' :: z) := hp.of_part ⟨x ++ '\x7b' :: m, [], by simp⟩
    have hHead : ∀ d ∈ z.head?, isPlain d = true ∨ d = '\x7d' := fun d hd =>
      ((List.isChain_cons.1 (hTail.chain rfl)).1 d hd).2 rfl
    have hz := ih (x := []) (by simpa using hTail.of_part (List.suffix_cons _ _).isInfix)
    rw [List.length_cons, Nat.add_sub_cancel, List.append_eq, List.drop_left] at hz ⊢
    refine hx.append_of_last (hf.append_of_head hz fun d hd => ?_) hLast
    -- what follows the hole begins no other one, so it stays where it is
    cases z with
    | nil => simp [Pxd.fill] at hd
    | cons e z =>
      have he : ('\x7b' == e) = false := by
        rw [beq_eq_false_iff_ne]
        rintro rfl
        exact absurd (hHead _ rfl) (by decide)
      rw [Pxd.fill, List.isPrefixOf_cons_cons, he, Bool.false_and, if_neg (by simp)] at hd
      obtain rfl : e = d := by simpa using hd
      exact hHead e rfl
  | case3 c rest _ ih => simpa using ih (x := x ++ [c]) (by simpa using hp)

theorem toList_nameHole : nameHole.toList = '\x7b' :: ("__name__".toList ++ ['\x7d']) := by decide

theorem neat_nameHole : Neat b nameHole.toList := by
  rw [toList_nameHole]
  have hAll : ("__name__".toList.all fun c => c != '\x7b' && c != '\x7d') = true := by decide
  refine .braced ⟨fun hp => ?_, fun _ => isChain_of_forall fun c hc => ?_⟩
  · exact absurd (hp.subset (show 'U' ∈ placeholder.toList by decide)) (by decide)
  · simpa using List.all_eq_true.1 hAll c hc

theorem neat_fillName {p f : String} (hp : Neat true p.toList) (hf : Neat b f.toList) :
    Neat b (fillName p f).toList := by
  rw [fillName, String.toList_ofList, toList_nameHole]
  exact hf.fill (x := []) hp

/-! ### Literals -/

theorem mem_hex_of_mem_toDigits {base n : Nat} (h : 1 < base) (h' : base ≤ 16)
    (hc : c ∈ Nat.toDigits base n) : c ∈ "0123456789abcdef".toList := by
  have hDigit : ∀ k < 16, Nat.digitChar k ∈ "0123456789abcdef".toList := by decide
  induction n using Nat.strongRecOn with
  | ind n ih =>
    rw [Nat.toDigits_eq_if h] at hc
    split at hc
    · rw [List.mem_singleton.1 hc]
      exact hDigit n (by omega)
    · rcases List.mem_append.1 hc with hc | hc
      · exact ih _ (Nat.div_lt_self (by omega) h) hc
      · rw [List.mem_singleton.1 hc]
        exact hDigit _ ((Nat.mod_lt _ (by omega)).trans_le h')

theorem isPlain_of_mem_hex (h : c ∈ "0123456789abcdef".toList) :
    isPlain c = true ∧ c ∉ ['_', '\x7b', '\x7d'] := by
  have hHex : ("0123456789abcdef".toList.all fun c =>
      isPlain c && !(['_', '\x7b', '\x7d'].contains c)) = true := by decide
  simpa using List.all_eq_true.1 hHex c h

theorem neat_toDigits (n : Nat) : Neat b (Nat.toDigits 10 n) :=
  neat_of_forall fun _ hc =>
    (isPlain_of_mem_hex (mem_hex_of_mem_toDigits (by omega) (by omega) hc)).2

theorem neat_ofInt (n : Int) : Neat b (Text.ofInt n).toList := by
  cases n with
  | ofNat m => simpa [Text.ofInt] using neat_toDigits m
  | negSucc m =>
    simpa [Text.ofInt, neat_cons (show isPlain '-' = true by decide)] using neat_toDigits (m + 1)

/-- The number of a character is written in digits, the last of which keeps it apart from what
follows. -/
theorem hexDigits_eq_append (width n : Nat) : ∃ ds d, Text.hexDigits width n = ds ++ [d] ∧
    isPlain d = true ∧ ∀ c ∈ ds, c ∉ ['_', '\x7b', '\x7d'] := by
  have hMem : ∀ c ∈ Text.hexDigits width n, c ∈ "0123456789abcdef".toList := fun c hc => by
    rcases List.mem_append.1 hc with hc | hc
    · rw [List.eq_of_mem_replicate hc]
      decide
    · exact mem_hex_of_mem_toDigits (by omega) (by omega) hc
  rcases List.eq_nil_or_concat (Text.hexDigits width n) with h | ⟨ds, d, h⟩
  · have := Nat.length_toDigits_pos (b := 16) (n := n)
    simp only [Text.hexDigits, List.append_eq_nil_iff] at h
    simp [h.2] at this
  · simp only [List.concat_eq_append] at h
    rw [h] at hMem ⊢
    exact ⟨ds, d, rfl, (isPlain_of_mem_hex (hMem d (by simp))).1, fun c hc =>
      (isPlain_of_mem_hex (hMem c (by simp [hc]))).2⟩

/-- An escape begins and ends with characters that keep it apart from what is around it. -/
theorem quoteChar_cases {q : Char} (hq : isPlain q = true) (c : Char) :
    Text.quoteChar q c = [c] ∨ ∃ m d, Text.quoteChar q c = '\\' :: (m ++ [d]) ∧
      isPlain d = true ∧ Neat b m := by
  have hCode : ∀ {u : Char} (width : Nat), u ∉ ['_', '\x7b', '\x7d'] → ∃ m d,
      '\\' :: u :: Text.hexDigits width c.toNat = '\\' :: (m ++ [d]) ∧ isPlain d = true ∧
      Neat b m := by
    intro u width hu
    obtain ⟨ds, d, h, hd, hds⟩ := hexDigits_eq_append width c.toNat
    exact ⟨u :: ds, d, by rw [h]; rfl, hd, neat_of_forall (List.forall_mem_cons.2 ⟨hu, hds⟩)⟩
  have hOne : ∀ {d : Char}, isPlain d = true → ∃ m e, ['\\', d] = '\\' :: (m ++ [e]) ∧
      isPlain e = true ∧ Neat b m := fun {d} hd => ⟨[], d, rfl, hd, .nil⟩
  unfold Text.quoteChar
  split
  · rename_i h
    rw [Bool.or_eq_true, beq_iff_eq, beq_iff_eq] at h
    rcases h with rfl | rfl
    · exact .inr (hOne hq)
    · exact .inr (hOne (by decide))
  iterate 3
    split
    · exact .inr (hOne (by decide))
  split
  · exact .inl rfl
  · unfold Text.codeEscape
    dsimp only
    split
    · exact .inr (hCode 2 (by decide))
    · split
      · exact .inr (hCode 4 (by decide))
      · exact .inr (hCode 8 (by decide))

theorem Neat.flatMap_quoteChar {q : Char} (hq : isPlain q = true) {cs : List Char}
    (h : Neat b (x ++ cs)) : Neat b (x ++ cs.flatMap (Text.quoteChar q)) := by
  induction cs generalizing x with
  | nil => exact h
  | cons c cs ih =>
    rw [List.flatMap_cons]
    rcases quoteChar_cases hq c with hc | ⟨m, d, hc, hd, hm⟩
    · rw [hc]
      simpa using ih (x := x ++ [c]) (by simpa using h)
    · have hx : Neat b x := h.of_part (List.prefix_append _ _).isInfix
      have hcs : Neat b cs := h.of_part ⟨x ++ [c], [], by simp⟩
      rw [hc, List.cons_append, neat_append_cons (by decide), List.append_assoc,
        List.singleton_append, neat_append_cons hd]
      exact ⟨hx, hm, ih (x := []) hcs⟩

theorem neat_quoted {s : String} (h : Neat b s.toList) : Neat b (Text.quoted s).toList := by
  have hMark : isPlain (Text.quoteMark s.toList) = true := by
    unfold Text.quoteMark
    split <;> decide
  rw [Text.quoted, String.toList_ofList, List.cons_append, neat_cons hMark, neat_append_cons hMark]
  exact ⟨h.flatMap_quoteChar hMark (x := []), .nil⟩

theorem forall_mem_layout {P : Char → Prop} (hSigns : P '0' ∧ P '.' ∧ P 'e' ∧ P '-' ∧ P '+')
    (hDigits : ∀ n, ∀ c ∈ Nat.toDigits 10 n, P c) {digits : List Char} (h : ∀ c ∈ digits, P c)
    (point : Int) : ∀ c ∈ Decimal.layout digits point, P c := by
  obtain ⟨hZero, hPoint, he, hMinus, hPlus⟩ := hSigns
  have hZeros : ∀ n, ∀ c ∈ List.replicate n '0', P c := fun n c hc => by
    rwa [List.eq_of_mem_replicate hc]
  have hTake := fun c (hc : c ∈ digits.take point.toNat) => h c (List.mem_of_mem_take hc)
  have hDrop := fun c (hc : c ∈ digits.drop point.toNat) => h c (List.mem_of_mem_drop hc)
  have hSign : P (if point - 1 < 0 then '-' else '+') := by split <;> assumption
  unfold Decimal.layout
  dsimp only
  split
  · split
    · exact List.forall_mem_cons.2 ⟨hZero, List.forall_mem_cons.2 ⟨hPoint,
        List.forall_mem_append.2 ⟨hZeros _, h⟩⟩⟩
    · split
      · refine List.forall_mem_append.2 ⟨List.forall_mem_append.2 ⟨h, hZeros _⟩, ?_⟩
        simp [hPoint, hZero]
      · exact List.forall_mem_append.2 ⟨hTake, List.forall_mem_cons.2 ⟨hPoint, hDrop⟩⟩
  · refine List.forall_mem_append.2 ⟨List.forall_mem_append.2 ⟨?_, ?_⟩, hDigits _⟩
    · cases digits with
      | nil => simp
      | cons d rest => cases rest <;> simp_all
    · exact List.forall_mem_cons.2 ⟨he, List.forall_mem_cons.2 ⟨hSign, hZeros _⟩⟩

theorem neat_float (x : Decimal.Binary) : Neat b x.text.toList := by
  cases x with
  | undefined => exact neat_of_all (by decide)
  | infinite negative => cases negative <;> exact neat_of_all (by decide)
  | finite negative m q =>
    have hDigits : ∀ n, ∀ c ∈ Nat.toDigits 10 n, c ∉ ['_', '\x7b', '\x7d'] := fun n c hc =>
      (isPlain_of_mem_hex (mem_hex_of_mem_toDigits (by omega) (by omega) hc)).2
    have hLayout := fun n point =>
      forall_mem_layout (by decide) hDigits (hDigits n) point
    have hZero : ∀ c ∈ "0.0".toList, c ∉ ['_', '\x7b', '\x7d'] := by simp
    rw [Decimal.Binary.text, String.toList_ofList]
    refine neat_of_forall fun c hc => ?_
    grind

theorem neat_number {v : Value} (h : Want.number.admits v = true) :
    Neat b (v.literal fun _ => "<object>").toList := by
  cases v with
  | flag c => cases c <;> exact neat_of_all (by decide)
  | int n => exact neat_ofInt n
  | float x => exact neat_float x
  | _ => cases h

theorem infix_trim (t : String) : (Text.trim t).toList <:+: t.toList := by
  rw [Text.trim, String.toList_ofList]
  have hEnd := (List.dropWhile_suffix (l := (t.toList.dropWhile Text.isBlank).reverse) Text.isBlank)
  exact (List.reverse_prefix.2 hEnd).isInfix.trans
    (by simpa using (List.dropWhile_suffix (l := t.toList) Text.isBlank).isInfix)

/-! ### Marks -/

/-- A mark that can be put around a neat text. -/
def IsMark (m : String) : Prop :=
  ∀ b (t : String), Neat b t.toList → Neat b (wrapMark t m).toList

theorem neat_wrap {marks : List String} (hm : ∀ m ∈ marks, IsMark m) {t : String}
    (h : Neat b t.toList) : Neat b (wrap marks t).toList := by
  induction marks generalizing t with
  | nil => exact h
  | cons m marks ih => exact ih (fun n hn => hm n (by simp [hn])) (hm m (by simp) b t h)

theorem isMark_word {m : String} (h : m ∈ ["*", "&", "const", "()"]) : IsMark m := by
  intro b t ht
  simp only [List.mem_cons, List.not_mem_nil, or_false] at h
  rcases h with rfl | rfl | rfl | rfl <;>
    simpa (disch := decide) [wrapMark, neat_cons, neat_append_cons, Neat.nil] using ht

theorem isMark_dim (x : Value) : Want.int.admits x = true →
    IsMark ("[" ++ (if x matches .nothing then "" else x.plain) ++ "]") := by
  have hDim : ∀ b, Want.int.admits x = true →
      Neat b (if x matches .nothing then "" else x.plain).toList := by
    intro b h
    cases x with
    | flag c =>
      clear h
      cases c <;> exact neat_of_all (by decide)
    | int n => exact neat_ofInt n
    | _ => cases h
  intro h b t ht
  rw [wrapMark_dim]
  simpa (disch := decide) [neat_append_cons, Neat.nil, ht] using hDim b h

theorem isMark_parenthesize {marks : List String} (h : ∀ m ∈ marks, IsMark m) :
    ∀ m ∈ parenthesize marks, IsMark m := by
  have hParen : IsMark "()" := isMark_word (by simp)
  fun_induction parenthesize marks <;> grind

/-! ### Trees without the placeholder -/

/-- The value `w` stands anywhere in `v`. -/
inductive Contains (w : Value) : Value → Prop where
  | self : Contains w w
  | part {kind : Kind} {fields : List (String × Value)} {x u : Value} :
    x ∈ fields.map (·.2) → Carries x u → Contains w u → Contains w (.node kind fields)

theorem Contains.trans {u v w : Value} (h : Contains u w) (h' : Contains w v) : Contains u v := by
  induction h' with
  | self => exact h
  | part hx hc _ ih => exact .part hx hc ih

/-- No string in the value has a brace. -/
def NoBrace (v : Value) : Prop :=
  ∀ t, Contains (.text t) v → ∀ c ∈ t.toList, c ≠ '\x7b' ∧ c ≠ '\x7d'

/-- An expression that is rendered by rules, without the placeholder in its strings, and without
braces in those of function types. -/
structure Tame (b : Bool) (v : Value) : Prop where
  drawn : Drawn v
  clear : ∀ t, Contains (.text t) v → ¬ placeholder.toList <:+: t.toList
  inner : ∀ w, Contains w v → w.isNode .cFunctionType = true → NoBrace w
  outer : b = true → NoBrace v

theorem Tame.part {v w : Value} (h : Tame b v) (hw : Contains w v) (hd : Drawn w) : Tame b w where
  drawn := hd
  clear t ht := h.clear t (ht.trans hw)
  inner u hu := h.inner u (hu.trans hw)
  outer hb t ht := h.outer hb t (ht.trans hw)

theorem Tame.neat {v : Value} (h : Tame b v) {t : String} (ht : Contains (.text t) v) :
    Neat b t.toList :=
  ⟨h.clear t ht, fun hb => isChain_of_forall (h.outer hb t ht)⟩

end PxdGen.Pxd
