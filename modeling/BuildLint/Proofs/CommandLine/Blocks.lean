import BuildLint.Proofs.CommandLine.Tokens
import Mathlib.Data.List.Basic
import Mathlib.Data.List.Induction

/-!
# Proofs/CommandLine/Blocks — the arguments of a text are its blocks

Seen from outside, a text of arguments is positions.  One is **quoted** if an odd number of double
quotes stand before it, and it **separates** if an unquoted space, tab, carriage return or line feed
stands there.  A **block** is a stretch of positions none of which separates and that goes as far as
it can either way.  An argument is a block without its quotes.

* `Reading` — cutting, one code point at a time.
* `Reads` — what a reading knows of the text behind it: the blocks that have ended, and where the
  last stretch begins.  `Reads.step` keeps it.
* `split?_eq_blocks` — cutting a text gives its blocks, in order.
-/

namespace BuildLint

namespace Tokens

/-! ## Blocks of a text -/

/-- What separates arguments where it is not quoted. -/
def separators : List CodePoint := [' ', '\t', '\r', '\n']

/-- A position is quoted: an odd number of double quotes stand before it. -/
def QuotedAt (t : Text) (i : Nat) : Prop := Odd ((t.take i).count ('"' : CodePoint))

instance (t : Text) (i : Nat) : Decidable (QuotedAt t i) :=
  inferInstanceAs (Decidable (Odd ((t.take i).count ('"' : CodePoint))))

/-- **A position separates arguments.** -/
def SeparatesAt (t : Text) (i : Nat) : Prop := (∃ c ∈ t[i]?, c ∈ separators) ∧ ¬QuotedAt t i

instance (t : Text) (i : Nat) : Decidable (SeparatesAt t i) :=
  inferInstanceAs (Decidable ((∃ c ∈ t[i]?, c ∈ separators) ∧ ¬QuotedAt t i))

/-- A stretch of positions, from one up to before another. -/
structure Block where
  start : Nat
  stop : Nat

/-- **A block of a text**: positions none of which separates, as many as there are side by side. -/
structure IsBlock (t : Text) (b : Block) : Prop where
  nonempty : b.start < b.stop
  within : b.stop ≤ t.length
  whole : ∀ i, b.start ≤ i → i < b.stop → ¬SeparatesAt t i
  starts : ∀ i, i + 1 = b.start → SeparatesAt t i
  stops : b.stop < t.length → SeparatesAt t b.stop

/-- **All blocks of a text**, from left to right. -/
structure AreBlocks (t : Text) (blocks : List Block) : Prop where
  mem_iff : ∀ b, b ∈ blocks ↔ IsBlock t b
  inOrder : blocks.Pairwise fun a b => a.stop < b.start

/-- What stands in a block, without double quotes. -/
def Block.argument (t : Text) (b : Block) : Text :=
  ((t.take b.stop).drop b.start).filter (· ≠ ('"' : CodePoint))

/-- A block in which there are only double quotes. -/
def Block.IsQuotes (t : Text) (b : Block) : Prop :=
  ∀ i, b.start ≤ i → i < b.stop → t[i]? = some ('"' : CodePoint)

/-- What stands at a position, unless that is a double quote or separates. -/
def keptAt? (t : Text) (i : Nat) : Option CodePoint :=
  if SeparatesAt t i then none else t[i]?.filter (· ≠ ('"' : CodePoint))

/-- **All that a text holds besides double quotes and separators**, in order. -/
def kept (t : Text) : Text := (List.range t.length).filterMap (keptAt? t)

/-- A code point that is neither a double quote nor ever a separator. -/
def IsOrdinary (c : CodePoint) : Prop := c ≠ '"' ∧ c ∉ separators

instance (c : CodePoint) : Decidable (IsOrdinary c) :=
  inferInstanceAs (Decidable (c ≠ '"' ∧ c ∉ separators))

/-- **Other ordinary code points for ordinary ones**; all others stay. -/
structure Renaming where
  rename : CodePoint → CodePoint
  ordinary : ∀ c, IsOrdinary c → IsOrdinary (rename c)
  other : ∀ c, ¬IsOrdinary c → rename c = c

variable {t : Text} {c : CodePoint} {i j : Nat} {b : Block}

theorem isSeparator_iff : isSeparator c = true ↔ c ∈ separators := by
  simp [isSeparator, separators, or_assoc]

/-! ## One more code point -/

theorem quotedAt_concat (hi : i ≤ t.length) : QuotedAt (t ++ [c]) i ↔ QuotedAt t i := by
  rw [QuotedAt, List.take_append_of_le_length hi]
  exact Iff.rfl

theorem SeparatesAt.lt (h : SeparatesAt t i) : i < t.length := by
  obtain ⟨⟨c, hc, -⟩, -⟩ := h
  exact (List.getElem?_eq_some_iff.1 hc).1

theorem separatesAt_concat (hi : i < t.length) : SeparatesAt (t ++ [c]) i ↔ SeparatesAt t i := by
  rw [SeparatesAt, SeparatesAt, List.getElem?_append_left hi, quotedAt_concat (Nat.le_of_lt hi)]

theorem separatesAt_length :
    SeparatesAt (t ++ [c]) t.length ↔ c ∈ separators ∧ ¬QuotedAt t t.length := by
  rw [SeparatesAt, quotedAt_concat le_rfl]
  simp

theorem argument_concat (hb : b.stop ≤ t.length) :
    b.argument (t ++ [c]) = b.argument t := by
  rw [Block.argument, List.take_append_of_le_length hb]
  rfl

/-- What stands behind a block makes no difference to it, as long as the block has ended. -/
theorem isBlock_concat (hb : b.stop ≤ t.length)
    (hend : b.stop = t.length → SeparatesAt (t ++ [c]) t.length) :
    IsBlock (t ++ [c]) b ↔ IsBlock t b := by
  have hlength : (t ++ [c]).length = t.length + 1 := List.length_append
  have hbefore : ∀ i, i < b.stop → (SeparatesAt (t ++ [c]) i ↔ SeparatesAt t i) :=
    fun i hi => separatesAt_concat (Nat.lt_of_lt_of_le hi hb)
  constructor
  · intro h
    exact ⟨h.nonempty, hb, fun i hi hi' hsep => h.whole i hi hi' ((hbefore i hi').2 hsep),
      fun i hi => (hbefore i (by have := h.nonempty; omega)).1 (h.starts i hi),
      fun hlt => (separatesAt_concat hlt).1 (h.stops (by omega))⟩
  · intro h
    refine ⟨h.nonempty, by omega, fun i hi hi' hsep => h.whole i hi hi' ((hbefore i hi').1 hsep),
      fun i hi => (hbefore i (by have := h.nonempty; omega)).2 (h.starts i hi), fun _ => ?_⟩
    rcases Nat.lt_or_eq_of_le hb with hlt | heq
    · exact (separatesAt_concat hlt).2 (h.stops hlt)
    · exact heq ▸ hend heq

/-! ## The last stretch of a text -/

/-- **Where the last stretch of a text begins**: behind the last position that separates.  The
stretch is empty if that is the last position of all. -/
structure IsLast (t : Text) (i : Nat) : Prop where
  within : i ≤ t.length
  whole : ∀ j, i ≤ j → ¬SeparatesAt t j
  starts : ∀ j, j + 1 = i → SeparatesAt t j

theorem IsLast.not_lt (hi : IsLast t i) (hj : IsLast t j) : ¬i < j := by
  intro hlt
  obtain ⟨k, rfl⟩ : ∃ k, j = k + 1 := ⟨j - 1, by omega⟩
  exact hi.whole k (by omega) (hj.starts k rfl)

theorem IsLast.unique (hi : IsLast t i) (hj : IsLast t j) : i = j := by
  have := hi.not_lt hj
  have := hj.not_lt hi
  omega

/-- The last stretch is a block unless it is empty. -/
theorem IsLast.isBlock_iff (hi : IsLast t i) :
    IsBlock t b ∧ b.stop = t.length ↔ b = ⟨i, t.length⟩ ∧ i < t.length := by
  constructor
  · rintro ⟨h, hstop⟩
    have hlast : IsLast t b.start := by
      refine ⟨Nat.le_trans (Nat.le_of_lt h.nonempty) h.within, fun j hj hsep => ?_, h.starts⟩
      exact h.whole j hj (hstop ▸ hsep.lt) hsep
    obtain rfl := hi.unique hlast
    exact ⟨by rw [← hstop], hstop ▸ h.nonempty⟩
  · rintro ⟨rfl, hlt⟩
    exact ⟨⟨hlt, le_rfl, fun j hj _ => hi.whole j hj, hi.starts, fun h => absurd h (lt_irrefl _)⟩,
      rfl⟩

/-- A code point that does not separate continues the last stretch. -/
theorem IsLast.concat (hi : IsLast t i) (hc : ¬SeparatesAt (t ++ [c]) t.length) :
    IsLast (t ++ [c]) i where
  within := by rw [List.length_append]; exact Nat.le_trans hi.within (Nat.le_add_right _ _)
  whole := fun j hj hsep => by
    have hlt := hsep.lt
    rw [List.length_append, List.length_singleton] at hlt
    rcases Nat.lt_succ_iff_lt_or_eq.1 hlt with hlt | rfl
    · exact hi.whole j hj ((separatesAt_concat hlt).1 hsep)
    · exact hc hsep
  starts := fun j hj =>
    (separatesAt_concat (by have := hi.within; omega)).2 (hi.starts j hj)

/-- A code point that separates begins another stretch, still empty. -/
theorem isLast_of_separates (hc : SeparatesAt (t ++ [c]) t.length) :
    IsLast (t ++ [c]) (t.length + 1) where
  within := by rw [List.length_append, List.length_singleton]
  whole := fun j hj hsep => by
    have hlt := hsep.lt
    rw [List.length_append, List.length_singleton] at hlt
    omega
  starts := fun j hj => by
    obtain rfl := Nat.succ.inj hj
    exact hc

/-- The last stretch as a block, unless it is empty. -/
def ending (t : Text) (i : Nat) : Option Block :=
  if i < t.length then some ⟨i, t.length⟩ else none

theorem IsLast.mem_ending (hi : IsLast t i) :
    b ∈ (ending t i).toList ↔ IsBlock t b ∧ b.stop = t.length := by
  rw [hi.isBlock_iff, ending]
  split
  · rename_i hlt
    rw [Option.toList_some, List.mem_singleton, and_iff_left hlt]
  · rename_i hlt
    exact ⟨fun h => absurd h List.not_mem_nil, fun h => absurd h.2 hlt⟩

/-- What has been read of the last stretch, which is nothing while it is empty. -/
theorem getD_map_ending (t : Text) (i : Nat) :
    ((ending t i).map (Block.argument t)).getD [] = Block.argument t ⟨i, t.length⟩ := by
  rw [ending]
  split
  · rfl
  · rename_i hlt
    have hdrop : t.drop i = [] := List.drop_eq_nil_of_le (Nat.le_of_not_lt hlt)
    rw [Block.argument, List.take_length, hdrop]
    rfl

/-! ## Cutting, one code point at a time -/

/-- **How far cutting has come**: whether a quote is open, what has been read of an argument, and
the arguments that are complete. -/
structure Reading where
  quoted : Bool
  open? : Option Text
  complete : List Text

namespace Reading

/-- Nothing has been read. -/
def start : Reading := ⟨false, none, []⟩

/-- One more code point is read. -/
def step (r : Reading) (c : CodePoint) : Reading :=
  if c = '"' then ⟨!r.quoted, some (r.open?.getD []), r.complete⟩
  else if !r.quoted && isSeparator c then ⟨false, none, r.complete ++ r.open?.toList⟩
  else ⟨r.quoted, some (r.open?.getD [] ++ [c]), r.complete⟩

/-- The arguments so far, with the one that is being read. -/
def arguments (r : Reading) : List Text := r.complete ++ r.open?.toList

variable {r : Reading}

theorem step_quote (r : Reading) :
    r.step '"' = ⟨!r.quoted, some (r.open?.getD []), r.complete⟩ := if_pos rfl

theorem step_separator (hquoted : r.quoted = false) (hc : c ∈ separators) :
    r.step c = ⟨false, none, r.complete ++ r.open?.toList⟩ := by
  have hquote : c ≠ '"' := by
    rintro rfl
    revert hc
    decide
  rw [step, if_neg hquote, if_pos (by rw [hquoted, isSeparator_iff.2 hc]; rfl)]

theorem step_other (hquote : c ≠ '"') (hc : r.quoted = true ∨ c ∉ separators) :
    r.step c = ⟨r.quoted, some (r.open?.getD [] ++ [c]), r.complete⟩ := by
  have hseparator : ¬(!r.quoted && isSeparator c) = true := by
    rw [Bool.and_eq_true, isSeparator_iff, Bool.not_eq_true']
    rintro ⟨hopen, hmem⟩
    exact hc.elim (fun h => Bool.false_ne_true (hopen.symm.trans h)) fun h => h hmem
  rw [step, if_neg hquote, if_neg hseparator]

end Reading

/-- The reading behind a whole text. -/
def reading (t : Text) : Reading := t.foldl Reading.step .start

theorem reading_concat (t : Text) (c : CodePoint) : reading (t ++ [c]) = (reading t).step c :=
  List.foldl_append

/-- What cutting goes on to find is what a reading goes on to find. -/
theorem map_scan (r : Reading) (t : Text) :
    (scan r.quoted r.open? t).map (r.complete ++ ·) =
      if (t.foldl Reading.step r).quoted then none
      else some (t.foldl Reading.step r).arguments := by
  induction t generalizing r with
  | nil =>
    rw [scan, List.foldl_nil]
    cases r.quoted <;> rfl
  | cons c rest ih =>
    rw [List.foldl_cons, ← ih, scan, Reading.step]
    split
    · rfl
    · split
      · rw [Option.map_map]
        congr 1
        funext arguments
        exact (List.append_assoc ..).symm
      · rfl

/-- **Cutting is reading to the end**, where no quote may be open. -/
theorem split?_eq_reading (t : Text) :
    split? t = if (reading t).quoted then none else some (reading t).arguments := by
  rw [reading, ← map_scan, split?]
  exact Option.map_id'.symm

/-! ## What a reading knows of the text behind it -/

/-- **A reading has read a text**: it knows whether the end is quoted, the arguments of the blocks
that have ended, and what stands in the last stretch. -/
structure Reads (t : Text) (r : Reading) (blocks : List Block) (i : Nat) : Prop where
  quoted : r.quoted = true ↔ QuotedAt t t.length
  mem_iff : ∀ b, b ∈ blocks ↔ IsBlock t b ∧ b.stop < t.length
  inOrder : blocks.Pairwise fun a b => a.stop < b.start
  complete : r.complete = blocks.map (Block.argument t)
  last : IsLast t i
  open? : r.open? = (ending t i).map (Block.argument t)

variable {r : Reading} {blocks : List Block}

theorem quotedAt_length : QuotedAt t t.length ↔ Odd (t.count ('"' : CodePoint)) := by
  rw [QuotedAt, List.take_length]

theorem reads_nil : Reads [] .start [] 0 where
  quoted := by decide
  mem_iff := fun b => ⟨fun h => absurd h List.not_mem_nil, fun h => absurd h.2 (Nat.not_lt_zero _)⟩
  inOrder := .nil
  complete := rfl
  last := ⟨le_rfl, fun j _ hsep => absurd hsep.lt (Nat.not_lt_zero _), fun j hj => nomatch hj⟩
  open? := rfl

/-- A double quote opens or closes, and nothing else does. -/
theorem Reads.quoted_step (h : Reads t r blocks i) (c : CodePoint) :
    (r.step c).quoted = true ↔ QuotedAt (t ++ [c]) (t ++ [c]).length := by
  have hquoted := h.quoted
  rw [quotedAt_length] at hquoted ⊢
  rw [List.count_append]
  by_cases hquote : c = '"'
  · subst hquote
    rw [Reading.step_quote, List.count_singleton_self, Nat.odd_add_one, ← hquoted]
    simp
  · rw [List.count_singleton, if_neg (by simpa using hquote), Nat.add_zero, ← hquoted]
    by_cases hc : r.quoted = false ∧ c ∈ separators
    · rw [Reading.step_separator hc.1 hc.2, hc.1]
    · rw [Reading.step_other hquote (by simpa [or_iff_not_imp_left] using hc)]

/-- **The blocks that have ended and the last stretch** are all blocks there are. -/
theorem Reads.areBlocks (h : Reads t r blocks i) :
    AreBlocks t (blocks ++ (ending t i).toList) := by
  refine ⟨fun b => ?_, List.pairwise_append.2 ⟨h.inOrder, ?_, fun a ha b hb => ?_⟩⟩
  · rw [List.mem_append, h.mem_iff, h.last.mem_ending, ← and_or_left, and_iff_left_iff_imp]
    exact fun hb => Nat.lt_or_eq_of_le hb.within
  · cases ending t i with
    | none => exact .nil
    | some b => exact List.pairwise_singleton _ b
  · obtain ⟨hblock, hlt⟩ := (h.mem_iff a).1 ha
    obtain ⟨rfl, -⟩ := h.last.isBlock_iff.1 (h.last.mem_ending.1 hb)
    -- the position behind an ended block separates, and none of the last stretch does
    exact Nat.lt_of_not_le fun hle => h.last.whole a.stop hle (hblock.stops hlt)

/-- The arguments so far are what stands in the blocks so far. -/
theorem Reads.arguments_eq (h : Reads t r blocks i) :
    r.arguments = (blocks ++ (ending t i).toList).map (Block.argument t) := by
  rw [Reading.arguments, h.complete, h.open?, List.map_append]
  cases ending t i <;> rfl

theorem Reads.step_of_separates (h : Reads t r blocks i)
    (hc : SeparatesAt (t ++ [c]) t.length) : r.step c = ⟨false, none, r.arguments⟩ := by
  obtain ⟨hmem, hquoted⟩ := separatesAt_length.1 hc
  rw [← h.quoted] at hquoted
  exact Reading.step_separator (Bool.eq_false_iff.2 hquoted) hmem

/-- A code point that does not separate is kept, unless it is a double quote. -/
theorem Reads.step_of_not_separates (h : Reads t r blocks i)
    (hc : ¬SeparatesAt (t ++ [c]) t.length) :
    (r.step c).complete = r.complete ∧
      (r.step c).open? = some (r.open?.getD [] ++ [c].filter (· ≠ ('"' : CodePoint))) := by
  by_cases hquote : c = '"'
  · subst hquote
    rw [Reading.step_quote]
    exact ⟨rfl, congrArg some (List.append_nil _).symm⟩
  · have hother : r.quoted = true ∨ c ∉ separators := by
      rw [h.quoted]
      rw [separatesAt_length] at hc
      tauto
    have hkept : [c].filter (· ≠ ('"' : CodePoint)) = [c] :=
      List.filter_eq_self.2 fun d hd => by simpa [List.mem_singleton.1 hd] using hquote
    rw [Reading.step_other hquote hother, hkept]
    exact ⟨rfl, rfl⟩

/-- **A code point that separates** ends the last stretch. -/
theorem Reads.step_separates (h : Reads t r blocks i) (hc : SeparatesAt (t ++ [c]) t.length) :
    Reads (t ++ [c]) (r.step c) (blocks ++ (ending t i).toList) (t.length + 1) := by
  have hlength : (t ++ [c]).length = t.length + 1 := List.length_append
  have hstep := h.step_of_separates hc
  have hblocks := h.areBlocks
  refine ⟨h.quoted_step c, fun b => ?_, hblocks.inOrder, ?_, isLast_of_separates hc, ?_⟩
  · rw [hblocks.mem_iff, hlength, Nat.lt_succ_iff]
    constructor
    · exact fun hb => ⟨(isBlock_concat hb.within fun _ => hc).2 hb, hb.within⟩
    · exact fun ⟨hb, hwithin⟩ => (isBlock_concat hwithin fun _ => hc).1 hb
  · rw [hstep, h.arguments_eq]
    exact List.map_congr_left fun b hb =>
      (argument_concat ((hblocks.mem_iff b).1 hb).within).symm
  · rw [hstep, ending, if_neg (by omega)]
    rfl

/-- **Any other code point** continues the last stretch. -/
theorem Reads.step_continues (h : Reads t r blocks i) (hc : ¬SeparatesAt (t ++ [c]) t.length) :
    Reads (t ++ [c]) (r.step c) blocks i := by
  have hlength : (t ++ [c]).length = t.length + 1 := List.length_append
  obtain ⟨hcomplete, hopen⟩ := h.step_of_not_separates hc
  refine ⟨h.quoted_step c, fun b => ?_, h.inOrder, ?_, h.last.concat hc, ?_⟩
  · rw [h.mem_iff, hlength, Nat.lt_succ_iff]
    constructor
    · rintro ⟨hb, hlt⟩
      exact ⟨(isBlock_concat hb.within fun heq => absurd heq (Nat.ne_of_lt hlt)).2 hb, hb.within⟩
    · rintro ⟨hb, hle⟩
      -- a block that ended at the new position would need it to separate
      have hne : b.stop ≠ t.length := fun heq => hc (heq ▸ hb.stops (by omega))
      exact ⟨(isBlock_concat hle fun heq => absurd heq hne).1 hb, Nat.lt_of_le_of_ne hle hne⟩
  · rw [hcomplete, h.complete]
    exact List.map_congr_left fun b hb =>
      (argument_concat (Nat.le_of_lt ((h.mem_iff b).1 hb).2)).symm
  · have hi : i ≤ t.length := h.last.within
    rw [hopen, h.open?, getD_map_ending, ending, if_pos (by omega), Option.map_some, hlength]
    congr 1
    rw [Block.argument, Block.argument, List.take_length, ← hlength, List.take_length,
      List.drop_append_of_le_length hi, List.filter_append]

/-- **Every text has been read** behind it. -/
theorem exists_reads (t : Text) : ∃ blocks i, Reads t (reading t) blocks i := by
  induction t using List.reverseRecOn with
  | nil => exact ⟨[], 0, reads_nil⟩
  | append_singleton t c ih =>
    obtain ⟨blocks, i, h⟩ := ih
    rw [reading_concat]
    by_cases hc : SeparatesAt (t ++ [c]) t.length
    · exact ⟨_, _, h.step_separates hc⟩
    · exact ⟨_, _, h.step_continues hc⟩

/-! ## What the arguments hold -/

/-- **An argument is empty** if there are only double quotes in its block. -/
theorem Block.argument_eq_nil_iff (hb : b.stop ≤ t.length) :
    b.argument t = [] ↔ b.IsQuotes t := by
  rw [Block.argument, List.filter_eq_nil_iff]
  constructor
  · intro h i hi hi'
    have hlt : i < t.length := by omega
    have hget : ((t.take b.stop).drop b.start)[i - b.start]? = some t[i] := by
      rw [List.getElem?_drop, Nat.add_sub_cancel' hi, List.getElem?_take_of_lt hi',
        List.getElem?_eq_getElem hlt]
    have hquote : t[i] = '"' := by simpa using h _ (List.mem_of_getElem? hget)
    rw [List.getElem?_eq_getElem hlt, hquote]
  · intro h c hc
    obtain ⟨k, hk⟩ := List.mem_iff_getElem?.1 hc
    rw [List.getElem?_drop] at hk
    have hlt : b.start + k < b.stop := by
      have := (List.getElem?_eq_some_iff.1 hk).1
      rw [List.length_take] at this
      omega
    rw [List.getElem?_take_of_lt hlt, h _ (Nat.le_add_right _ _) hlt] at hk
    simp [← Option.some.inj hk]

theorem kept_concat (t : Text) (c : CodePoint) :
    kept (t ++ [c]) = kept t ++ (keptAt? (t ++ [c]) t.length).toList := by
  have hbefore : (List.range t.length).filterMap (keptAt? (t ++ [c])) = kept t :=
    List.filterMap_congr fun i hi => by
      have hlt := List.mem_range.1 hi
      simp only [keptAt?, separatesAt_concat hlt, List.getElem?_append_left hlt]
  have hlength : (t ++ [c]).length = t.length + 1 := List.length_append
  rw [kept, hlength, List.range_succ, List.filterMap_append, hbefore, List.filterMap_cons]
  cases keptAt? (t ++ [c]) t.length <;> rfl

theorem Reading.flatten_arguments (r : Reading) :
    r.arguments.flatten = r.complete.flatten ++ r.open?.getD [] := by
  rw [arguments, List.flatten_append]
  cases r.open? with
  | none => rfl
  | some s => exact congrArg _ (List.append_nil s)

/-- **What a text holds besides quotes and separators** is what its arguments hold. -/
theorem flatten_arguments (t : Text) : (reading t).arguments.flatten = kept t := by
  induction t using List.reverseRecOn with
  | nil => rfl
  | append_singleton t c ih =>
    obtain ⟨blocks, i, h⟩ := exists_reads t
    rw [reading_concat, kept_concat, ← ih]
    by_cases hc : SeparatesAt (t ++ [c]) t.length
    · rw [h.step_of_separates hc, keptAt?, if_pos hc]
      simp [Reading.arguments]
    · obtain ⟨hcomplete, hopen⟩ := h.step_of_not_separates hc
      rw [Reading.flatten_arguments, Reading.flatten_arguments, hcomplete, hopen, keptAt?,
        if_neg hc, List.getElem?_concat_length, Option.getD_some, List.append_assoc]
      by_cases hquote : c = '"' <;> simp [Option.filter, hquote]

/-! ## What is ordinary -/

namespace Renaming

variable (f : Renaming)

theorem rename_eq_quote_iff : f.rename c = '"' ↔ c = '"' := by
  by_cases hc : IsOrdinary c
  · exact iff_of_false (f.ordinary c hc).1 hc.1
  · rw [f.other c hc]

theorem isSeparator_rename (c : CodePoint) : isSeparator (f.rename c) = isSeparator c := by
  rw [Bool.eq_iff_iff, isSeparator_iff, isSeparator_iff]
  by_cases hc : IsOrdinary c
  · exact iff_of_false (f.ordinary c hc).2 hc.2
  · rw [f.other c hc]

end Renaming

/-- Cutting does not look at ordinary code points. -/
theorem scan_map (f : Renaming) (quoted : Bool) (open? : Option Text) (t : Text) :
    scan quoted (open?.map (·.map f.rename)) (t.map f.rename) =
      (scan quoted open? t).map (·.map (·.map f.rename)) := by
  have hget : ∀ o : Option Text, (o.map (·.map f.rename)).getD [] = (o.getD []).map f.rename :=
    fun o => by cases o <;> rfl
  induction t generalizing quoted open? with
  | nil => cases quoted <;> cases open? <;> rfl
  | cons c rest ih =>
    rw [List.map_cons, scan, scan, hget]
    by_cases hquote : c = '"'
    · rw [if_pos (f.rename_eq_quote_iff.2 hquote), if_pos hquote, ← ih]
      rfl
    · rw [if_neg (mt f.rename_eq_quote_iff.1 hquote), if_neg hquote, f.isSeparator_rename]
      split
      · have hnone := ih false none
        rw [Option.map_none] at hnone
        rw [hnone, Option.map_map, Option.map_map]
        cases open? <;> simp [Function.comp_def]
      · rw [← ih, Option.map_some, List.map_append]
        rfl

/-- **The arguments of a text are its blocks**, without their double quotes, unless the number of
quotes is odd.  Nothing else is lost, added or moved; a block of quotes alone is an empty argument;
and whatever is neither a quote nor a separator is like anything else that is neither. -/
theorem split?_eq_blocks (t : Text) :
    ∃ blocks, AreBlocks t blocks ∧
      split? t = (if Odd (t.count ('"' : CodePoint)) then none
        else some (blocks.map (Block.argument t))) ∧
      (blocks.map (Block.argument t)).flatten = kept t ∧
      (∀ b ∈ blocks, b.argument t = [] ↔ b.IsQuotes t) ∧
      (IsOrdinary '\\' ∧ IsOrdinary '\'' ∧ IsOrdinary '#') ∧
      ∀ f : Renaming, split? (t.map f.rename) = (split? t).map (·.map (·.map f.rename)) := by
  obtain ⟨blocks, i, h⟩ := exists_reads t
  have harguments := h.arguments_eq
  refine ⟨_, h.areBlocks, ?_, ?_, fun b hb => ?_, by decide, fun f => scan_map f false none t⟩
  · rw [split?_eq_reading, ← harguments]
    simp only [h.quoted, quotedAt_length]
  · rw [← harguments, flatten_arguments]
  · exact Block.argument_eq_nil_iff ((h.areBlocks.mem_iff b).1 hb).within

end Tokens

end BuildLint
