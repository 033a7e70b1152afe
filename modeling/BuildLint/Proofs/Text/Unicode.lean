import BuildLint.Analysis.Arguments
import BuildLint.Path.Lexical
import BuildLint.Proofs.Text.CodePoints
import BuildLint.Text.Quoted

/-!
# Proofs/Text/Unicode — text made of Unicode text is Unicode text

Half of a surrogate pair comes from nowhere: cutting, joining and quoting make Unicode text of
Unicode text, and so does every way to make one path of others.
-/

namespace BuildLint

namespace Text

variable {s t : Text} {pieces : List Text}

theorem IsUnicode.of_subset (h : IsUnicode t) (hs : s ⊆ t) : IsUnicode s := fun c hc => h c (hs hc)

@[simp] theorem isUnicode_nil : IsUnicode [] := fun _ h => absurd h List.not_mem_nil

@[simp] theorem isUnicode_cons {c : CodePoint} :
    IsUnicode (c :: t) ↔ c.isSurrogate = false ∧ IsUnicode t := List.forall_mem_cons

@[simp] theorem isUnicode_append : IsUnicode (s ++ t) ↔ IsUnicode s ∧ IsUnicode t :=
  List.forall_mem_append

theorem IsPlain.isUnicode (h : IsPlain t) : IsUnicode t := fun c hc =>
  CodePoint.isSurrogate_eq_false_iff.2 fun hsurrogate => by
    have hplain := (h c hc).2
    omega

theorem isUnicode_run (n : Nat) (c : Char) : IsUnicode (run n (CodePoint.ofChar c)) := by
  intro d hd
  obtain rfl := (List.mem_replicate.1 hd).2
  exact CodePoint.isSurrogate_ofChar c

/-! ## Cutting and joining -/

theorem IsUnicode.joinWith {sep : Text} (hsep : IsUnicode sep)
    (h : ∀ piece ∈ pieces, IsUnicode piece) : IsUnicode (joinWith sep pieces) := by
  induction pieces with
  | nil => exact isUnicode_nil
  | cons piece pieces ih =>
    obtain ⟨hpiece, hpieces⟩ := List.forall_mem_cons.1 h
    cases pieces with
    | nil => exact hpiece
    | cons next rest =>
      rw [joinWith_cons_cons, isUnicode_append, isUnicode_append]
      exact ⟨⟨hpiece, hsep⟩, ih hpieces⟩

/-- Pieces hold what the text holds. -/
theorem subset_of_mem_cutWhere {p : CodePoint → Bool} {piece : Text}
    (h : piece ∈ cutWhere p t) : piece ⊆ t := by
  induction t generalizing piece with
  | nil =>
    rw [List.mem_singleton.1 h]
    exact List.Subset.refl _
  | cons c rest ih =>
    rw [cutWhere] at h
    split at h
    · rcases List.mem_cons.1 h with rfl | h
      · exact List.nil_subset _
      · exact List.subset_cons_of_subset c (ih h)
    · cases hpieces : cutWhere p rest with
      | nil =>
        rw [hpieces] at h
        rw [List.mem_singleton.1 h]
        exact List.cons_subset_cons c (List.nil_subset _)
      | cons first others =>
        rw [hpieces] at h ih
        rcases List.mem_cons.1 h with rfl | h
        · exact List.cons_subset_cons c (ih List.mem_cons_self)
        · exact List.subset_cons_of_subset c (ih (List.mem_cons_of_mem _ h))

theorem stripRight_subset (p : CodePoint → Bool) (t : Text) : stripRight p t ⊆ t := fun c hc => by
  have hmem := List.mem_reverse.1 hc
  exact List.mem_reverse.1 ((List.dropWhile_sublist p).subset hmem)

theorem throughLast_subset (c : CodePoint) (t : Text) : throughLast c t ⊆ t :=
  stripRight_subset _ t

/-! ## Quoting -/

theorem isUnicode_hex (width n : Nat) : IsUnicode (hex width n) := by
  induction width generalizing n with
  | zero => exact isUnicode_nil
  | succ width ih => simp [hex, ih, hexDigit]

theorem IsUnicode.quotedPoint {quote c : CodePoint} (hc : c.isSurrogate = false) :
    IsUnicode (quotedPoint quote c) := by
  rw [Text.quotedPoint]
  split_ifs <;> simp [hc, isUnicode_hex]

/-- **A quoted text** adds quotes, backslashes and digits. -/
theorem IsUnicode.quoted (h : IsUnicode t) : IsUnicode (quoted t) := by
  have hquote : (quoteFor t).isSurrogate = false := by
    rw [quoteFor]
    split <;> exact CodePoint.isSurrogate_ofChar _
  have hpoints : IsUnicode (t.flatMap (Text.quotedPoint (quoteFor t))) := fun c hc => by
    obtain ⟨d, hd, hc⟩ := List.mem_flatMap.1 hc
    exact IsUnicode.quotedPoint (h d hd) c hc
  simp [Text.quoted, hquote, hpoints]

end Text

/-! ## Arguments -/

namespace Tokens

open Text

/-- Arguments hold what the text holds, and the first one what has been read of it before. -/
theorem isUnicode_of_mem_scan {quoted : Bool} {open? : Option Text} {t : Text}
    {tokens : List Text} (h : scan quoted open? t = some tokens) (hopen : ∀ s ∈ open?, IsUnicode s)
    (ht : IsUnicode t) : ∀ token ∈ tokens, IsUnicode token := by
  have hget : IsUnicode (open?.getD []) := by
    cases open? with
    | none => exact isUnicode_nil
    | some s => exact hopen s rfl
  induction t generalizing quoted open? tokens with
  | nil =>
    rw [scan] at h
    split at h
    · cases h
    · obtain rfl := Option.some.inj h
      exact fun token htoken => hopen token (Option.mem_toList.1 htoken)
  | cons c rest ih =>
    obtain ⟨hc, hrest⟩ := isUnicode_cons.1 ht
    rw [scan] at h
    split_ifs at h
    · exact ih h (fun s hs => Option.some.inj hs ▸ hget) hrest hget
    · obtain ⟨others, hothers, rfl⟩ := Option.map_eq_some_iff.1 h
      have hfirst : ∀ token ∈ open?.toList, IsUnicode token := fun token htoken =>
        hopen token (Option.mem_toList.1 htoken)
      exact List.forall_mem_append.2
        ⟨hfirst, ih hothers (fun s hs => nomatch hs) hrest isUnicode_nil⟩
    · have hmore : IsUnicode (open?.getD [] ++ [c]) := by simp [hget, hc]
      exact ih h (fun s hs => Option.some.inj hs ▸ hmore) hrest hmore

/-- **The arguments of Unicode text.** -/
theorem isUnicode_of_mem_split {t : Text} {tokens : List Text} (h : split? t = some tokens)
    (ht : IsUnicode t) : ∀ token ∈ tokens, IsUnicode token :=
  isUnicode_of_mem_scan h (fun _ hs => nomatch hs) ht

end Tokens

/-! ## Paths -/

namespace Path

open Text

variable {base p : Text}

theorem mem_descend {anchored : Bool} {before : List Text} {name n : Text}
    (h : n ∈ descend anchored before name) : n = name ∨ n ∈ before := by
  rw [descend.eq_def] at h
  split at h
  · cases before with
    | nil =>
      dsimp only at h
      split at h
      · exact absurd h List.not_mem_nil
      · exact .inl (List.mem_singleton.1 h)
    | cons last rest =>
      dsimp only at h
      split at h
      · exact List.mem_cons.1 h
      · exact .inr (List.mem_cons_of_mem _ h)
  · exact List.mem_cons.1 h

/-- **Carrying out two dots** brings no new name. -/
theorem collapse_subset (anchored : Bool) (names : List Text) :
    collapse anchored names ⊆ names := by
  have hfold : ∀ before, ∀ n ∈ names.foldl (descend anchored) before, n ∈ before ∨ n ∈ names := by
    induction names with
    | nil => exact fun _ _ h => .inl h
    | cons name names ih =>
      intro before n hn
      rcases ih _ n hn with hbefore | hnames
      · rcases mem_descend hbefore with rfl | hbefore
        · exact .inr List.mem_cons_self
        · exact .inl hbefore
      · exact .inr (List.mem_cons_of_mem name hnames)
  intro n hn
  exact (hfold [] n (List.mem_reverse.1 hn)).resolve_left List.not_mem_nil

theorem Form.isUnicode_ofText (hp : IsUnicode p) : ∀ name ∈ (ofText p).names, IsUnicode name :=
  fun _ hname => hp.of_subset (subset_of_mem_cutWhere (List.mem_of_mem_filter hname))

theorem Form.isUnicode_render {f : Form} (h : ∀ name ∈ f.names, IsUnicode name) :
    IsUnicode f.render := by
  rw [render]
  split
  · exact isUnicode_ofString _
  · exact isUnicode_append.2 ⟨isUnicode_run _ _, .joinWith (isUnicode_ofString _) h⟩

theorem isUnicode_normalize (hp : IsUnicode p) : IsUnicode (normalize p) :=
  Form.isUnicode_render fun name hname =>
    Form.isUnicode_ofText hp name (collapse_subset _ _ hname)

theorem isUnicode_join (hbase : IsUnicode base) (hp : IsUnicode p) : IsUnicode (join base p) := by
  rw [join]
  split_ifs <;> simp [hbase, hp]

theorem isUnicode_resolve (hbase : IsUnicode base) (hp : IsUnicode p) :
    IsUnicode (resolve base p) := by
  rw [resolve]
  split
  · exact isUnicode_normalize hp
  · exact isUnicode_normalize (isUnicode_join hbase hp)

theorem isUnicode_parent (hp : IsUnicode p) : IsUnicode (parent p) := by
  have hhead := hp.of_subset (throughLast_subset '/' p)
  rw [parent, dropSlashes]
  split
  · exact hhead
  · exact hhead.of_subset (stripRight_subset _ _)

theorem isUnicode_levelsUp (hp : IsUnicode p) (levels : Nat) : IsUnicode (levelsUp levels p) := by
  rw [levelsUp]
  induction levels with
  | zero => exact isUnicode_normalize hp
  | succ levels ih => exact isUnicode_parent ih

end Path

end BuildLint
