import BuildLint.Proofs.Json.Numbers
import BuildLint.Proofs.Json.Scan
import BuildLint.Proofs.Json.Strings
import BuildLint.Proofs.Json.Reading

/-!
# Proofs/Json/RoundTrip — what is written is read back

A value that a text can spell, and that has no floating-point number in it, is read from its written
form exactly as it was, on one line (`read_write`) or indented (`read_writeIndented`).  Both forms
**spell** the value (`Spells`): it is read back inside any text, whatever white space stands between
its parts, as long as the fuel covers twice their length.

* `spells_array`, `spells_object` — spelling the parts spells the whole.
* `spells_write`, `spells_writeIndented` — the two written forms.
* `isPlain_write` — the form on one line is plain text.
-/

namespace BuildLint

namespace Json

variable {fuel level : Nat} {rest t u ws : Text} {v : Json} {items : List Json}
  {members : Members}

/-! ## How a value begins, and what surrounds it -/

/-- How a value begins: with no white space or byte order mark, and with nothing that closes. -/
def Begins (t : Text) : Prop :=
  ∃ c r, t = c :: r ∧ isSpace c = false ∧ c ≠ ']' ∧ c ≠ '\x7d' ∧ c.val ≠ 0xFEFF

theorem Begins.append (h : Begins t) (rest : Text) : Begins (t ++ rest) := by
  obtain ⟨c, r, rfl, hc⟩ := h
  exact ⟨c, r ++ rest, rfl, hc⟩

theorem Begins.length_pos (h : Begins t) : 0 < t.length := by
  obtain ⟨c, r, rfl, -⟩ := h
  exact Nat.succ_pos _

theorem Begins.skip (h : Begins t) : Json.skip t = t := by
  obtain ⟨c, r, rfl, hspace, -⟩ := h
  exact List.dropWhile_cons_of_neg (by rw [hspace]; exact Bool.false_ne_true)

theorem Begins.skip_ne (h : Begins t) :
    (∀ r, Json.skip t ≠ CodePoint.ofChar ']' :: r) ∧
      ∀ r, Json.skip t ≠ CodePoint.ofChar '\x7d' :: r := by
  rw [h.skip]
  obtain ⟨c, r, rfl, -, hbracket, hbrace, -⟩ := h
  exact ⟨fun r h => hbracket (List.cons.inj h).1, fun r h => hbrace (List.cons.inj h).1⟩

theorem begins_writeString (key : Text) : Begins (writeString key) :=
  ⟨_, _, rfl, rfl, by decide, by decide, by decide⟩

theorem begins_ofInt (n : Int) : Begins (Decimal.ofInt n) := by
  obtain ⟨c, r, hc, hne⟩ := Decimal.exists_ofInt_eq_cons n
  refine ⟨c, r, hc, ?_, hne ']' rfl (by decide), hne '\x7d' rfl (by decide), fun hval => ?_⟩
  · simp [isSpace, hne ' ' rfl (by decide), hne '\t' rfl (by decide), hne '\n' rfl (by decide),
      hne '\r' rfl (by decide)]
  · exact hne (CodePoint.ofChar '\ufeff') rfl (by decide) (CodePoint.eq_of_val_eq hval)

/-- Nothing but white space. -/
def Spaces (ws : Text) : Prop := ∀ c ∈ ws, isSpace c = true

theorem spaces_nil : Spaces [] := fun _ h => absurd h List.not_mem_nil

theorem spaces_newLine (level : Nat) : Spaces (newLine level) := by
  refine List.forall_mem_cons.2 ⟨rfl, fun c hc => ?_⟩
  rw [List.eq_of_mem_replicate hc]
  rfl

theorem Spaces.skip_append (h : Spaces ws) (t : Text) : skip (ws ++ t) = skip t :=
  List.dropWhile_append_of_pos h

/-- White space in front of a value is passed over. -/
theorem Spaces.skip_begins (h : Spaces ws) (ht : Begins t) (rest : Text) :
    skip (ws ++ (t ++ rest)) = t ++ rest := by
  rw [h.skip_append, (ht.append rest).skip]

/-- White space, and then what follows a value. -/
theorem Spaces.ends (h : Spaces ws) (hrest : Ends rest) : Ends (ws ++ rest) := by
  cases ws with
  | nil => exact hrest
  | cons c ws =>
    intro d hd
    obtain rfl : c = d := Option.some.inj hd
    exact .inl (h c List.mem_cons_self)

theorem ends_cons {c : CodePoint} (hc : c = ',' ∨ c = ']' ∨ c = '\x7d') : Ends (c :: rest) := by
  intro d hd
  obtain rfl : c = d := Option.some.inj hd
  exact .inr hc

/-! ## Texts that spell a value -/

/-- **A text spells a value** inside any other text. -/
structure Spells (t : Text) (v : Json) : Prop where
  begins : Begins t
  scan_append : ∀ fuel rest, 2 * t.length ≤ fuel + 1 → Ends rest →
    scan fuel (t ++ rest) = .ok (v, rest)

/-- Some fuel there is, since a text that spells a value is not empty. -/
theorem Spells.of_succ (hbegins : Begins t)
    (h : ∀ fuel rest, 2 * t.length ≤ fuel + 2 → Ends rest →
      scan (fuel + 1) (t ++ rest) = .ok (v, rest)) : Spells t v := by
  refine ⟨hbegins, fun fuel rest hfuel hrest => ?_⟩
  have hpos := hbegins.length_pos
  obtain ⟨fuel, rfl⟩ : ∃ k, fuel = k + 1 := ⟨fuel - 1, by omega⟩
  exact h fuel rest hfuel hrest

/-- **A text spells items** up to the bracket that closes them. -/
inductive SpellsItems : Text → List Json → Prop
  | last {t ws : Text} {v : Json} (item : Spells t v) (space : Spaces ws) :
      SpellsItems (t ++ (ws ++ [CodePoint.ofChar ']'])) [v]
  | more {t ws u : Text} {v : Json} {items : List Json} (item : Spells t v) (space : Spaces ws)
      (others : SpellsItems u items) :
      SpellsItems (t ++ CodePoint.ofChar ',' :: (ws ++ u)) (v :: items)

/-- **A text spells members** up to the brace that closes them. -/
inductive SpellsMembers : Text → Members → Prop
  | last {key ws t ws' : Text} {v : Json} (unpaired : key.Unpaired) (space : Spaces ws)
      (value : Spells t v) (space' : Spaces ws') :
      SpellsMembers (writeString key ++ CodePoint.ofChar ':' ::
        (ws ++ (t ++ (ws' ++ [CodePoint.ofChar '\x7d'])))) [(key, v)]
  | more {key ws t ws' u : Text} {v : Json} {members : Members} (unpaired : key.Unpaired)
      (space : Spaces ws) (value : Spells t v) (space' : Spaces ws')
      (others : SpellsMembers u members) :
      SpellsMembers (writeString key ++ CodePoint.ofChar ':' ::
        (ws ++ (t ++ CodePoint.ofChar ',' :: (ws' ++ u)))) ((key, v) :: members)

theorem SpellsItems.begins (h : SpellsItems u items) : Begins u := by
  cases h with
  | last item _ => exact item.begins.append _
  | more item _ _ => exact item.begins.append _

theorem SpellsMembers.begins (h : SpellsMembers u members) : Begins u := by
  cases h with
  | last => exact (begins_writeString _).append _
  | more => exact (begins_writeString _).append _

/-- **Items that are spelled are read**, by induction on the items. -/
theorem SpellsItems.scanItems_append (h : SpellsItems u items) {before : List Json}
    (hfuel : 2 * u.length ≤ fuel) :
    scanItems fuel before (u ++ rest) = .ok (.array (before.reverse ++ items), rest) := by
  induction h generalizing before fuel with
  | last item space =>
    simp only [List.length_append, List.length_singleton] at hfuel
    obtain ⟨fuel, rfl⟩ : ∃ k, fuel = k + 1 := ⟨fuel - 1, by omega⟩
    rw [List.append_assoc, List.append_assoc]
    refine scanItems_eq_ok.2 ⟨_, _, item.scan_append fuel _ (by omega)
      (space.ends (ends_cons (.inr (.inl rfl)))), .inl ⟨?_, ?_⟩⟩
    · rw [space.skip_append]
      rfl
    · rw [List.reverse_cons]
  | more item space others ih =>
    simp only [List.length_append, List.length_cons] at hfuel
    obtain ⟨fuel, rfl⟩ : ∃ k, fuel = k + 1 := ⟨fuel - 1, by omega⟩
    rw [List.append_assoc, List.cons_append, List.append_assoc]
    refine scanItems_eq_ok.2 ⟨_, _, item.scan_append fuel _ (by omega) (ends_cons (.inl rfl)),
      .inr ⟨_, rfl, ?_⟩⟩
    rw [space.skip_begins others.begins, ih (by omega), List.reverse_cons, List.append_assoc]
    rfl

/-- A written key, as a reader finds it. -/
theorem writeString_append (key rest : Text) :
    writeString key ++ rest = CodePoint.ofChar '"' ::
      (key.flatMap writePoint ++ CodePoint.ofChar '"' :: rest) := by
  rw [writeString, List.append_assoc, List.append_assoc]
  rfl

/-- Members that come once each are set at the end one by one. -/
theorem set_of_nodup {key : Text} {before : Members}
    (honce : ((before ++ (key, v) :: members).map Prod.fst).Nodup) :
    Keyed.set before key v = before ++ [(key, v)] := by
  rw [List.map_append] at honce
  exact Keyed.set_of_not_mem
    (fun h => (List.nodup_append.1 honce).2.2 key h key List.mem_cons_self rfl) v

/-- **Members that are spelled are read**, by induction on the members. -/
theorem SpellsMembers.scanMembers_append (h : SpellsMembers u members) {before : Members}
    (honce : ((before ++ members).map Prod.fst).Nodup) (hfuel : 2 * u.length ≤ fuel) :
    scanMembers fuel before (u ++ rest) = .ok (.object (before ++ members), rest) := by
  induction h generalizing before fuel with
  | last unpaired space value space' =>
    simp only [List.length_append, List.length_cons, List.length_nil] at hfuel
    obtain ⟨fuel, rfl⟩ : ∃ k, fuel = k + 1 := ⟨fuel - 1, by omega⟩
    simp only [List.append_assoc, List.cons_append, List.nil_append]
    have hends : Ends (CodePoint.ofChar '\x7d' :: rest) := ends_cons (.inr (.inr rfl))
    have hvalue := value.scan_append fuel _ (by omega) (space'.ends hends)
    rw [writeString_append]
    refine scanMembers_eq_ok.2 ⟨_, _, _, _, _, _, rfl, scanString_writePoints unpaired _, rfl,
      (congrArg _ (space.skip_begins value.begins _)).trans hvalue, .inl ⟨?_, ?_⟩⟩
    · rw [space'.skip_append]
      rfl
    · rw [set_of_nodup honce]
  | more unpaired space value space' others ih =>
    simp only [List.length_append, List.length_cons] at hfuel
    obtain ⟨fuel, rfl⟩ : ∃ k, fuel = k + 1 := ⟨fuel - 1, by omega⟩
    simp only [List.append_assoc, List.cons_append]
    have hvalue := fun r => value.scan_append fuel (CodePoint.ofChar ',' :: r) (by omega)
      (ends_cons (.inl rfl))
    rw [writeString_append]
    refine scanMembers_eq_ok.2 ⟨_, _, _, _, _, _, rfl, scanString_writePoints unpaired _, rfl,
      (congrArg _ (space.skip_begins value.begins _)).trans (hvalue _), .inr ⟨_, rfl, ?_⟩⟩
    rw [space'.skip_begins others.begins, set_of_nodup honce,
      ih (by rwa [List.append_assoc]) (by omega), List.append_assoc]
    rfl

/-! ## Spelling each kind of value -/

theorem spells_null : Spells (write .null) .null := by
  refine .of_succ ⟨_, _, rfl, rfl, by decide, by decide, by decide⟩ fun fuel rest _ _ => ?_
  exact (scan_scalar (by decide) (by decide) (by decide)).trans rfl

theorem spells_bool (b : Bool) : Spells (write (.bool b)) (.bool b) := by
  cases b
  · refine .of_succ ⟨_, _, rfl, rfl, by decide, by decide, by decide⟩ fun fuel rest _ _ => ?_
    exact (scan_scalar (by decide) (by decide) (by decide)).trans rfl
  · refine .of_succ ⟨_, _, rfl, rfl, by decide, by decide, by decide⟩ fun fuel rest _ _ => ?_
    exact (scan_scalar (by decide) (by decide) (by decide)).trans rfl

/-- A whole number that is not too long. -/
theorem spells_int {n : Int} (short : (Decimal.ofNat n.natAbs).length ≤ maxDigits) :
    Spells (write (.int n)) (.int n) := by
  obtain ⟨c, r, hc, hne⟩ := Decimal.exists_ofInt_eq_cons n
  have hwrite : write (.int n) = c :: r := hc
  refine .of_succ (begins_ofInt n) fun fuel rest _ hrest => ?_
  have hscalar := scanScalar_ofInt short hrest
  rw [hc] at hscalar
  rw [hwrite, List.cons_append, scan_scalar (hne '"' rfl (by decide)) (hne '[' rfl (by decide))
    (hne '\x7b' rfl (by decide))]
  exact hscalar

/-- A text without a surrogate pair. -/
theorem spells_string {s : Text} (unpaired : s.Unpaired) :
    Spells (write (.string s)) (.string s) := by
  have hwrite : write (.string s) = writeString s := rfl
  refine .of_succ (begins_writeString s) fun fuel rest _ _ => ?_
  rw [hwrite, writeString_append, scan_string, scanString_writePoints unpaired]
  rfl

theorem spells_emptyArray : Spells "[]" (.array []) :=
  .of_succ ⟨_, _, rfl, rfl, by decide, by decide, by decide⟩ fun _ _ _ _ =>
    scan_array_of_close rfl

theorem spells_emptyObject : Spells "\x7b\x7d" (.object []) :=
  .of_succ ⟨_, _, rfl, rfl, by decide, by decide, by decide⟩ fun _ _ _ _ =>
    scan_object_of_close rfl

/-- **Spelling the items spells the array.** -/
theorem spells_array (hws : Spaces ws) (h : SpellsItems u items) :
    Spells (CodePoint.ofChar '[' :: (ws ++ u)) (.array items) := by
  refine .of_succ ⟨_, _, rfl, rfl, by decide, by decide, by decide⟩ fun fuel rest hfuel _ => ?_
  rw [List.length_cons, List.length_append] at hfuel
  have hskip := hws.skip_begins h.begins rest
  have hopen := (h.begins.append rest).skip_ne.1
  rw [(h.begins.append rest).skip, ← hskip] at hopen
  rw [List.cons_append, List.append_assoc, scan_array_of_open hopen, hskip,
    h.scanItems_append (by omega)]
  rfl

/-- **Spelling the members spells the object**, if no key comes twice. -/
theorem spells_object (hws : Spaces ws) (once : (members.map Prod.fst).Nodup)
    (h : SpellsMembers u members) :
    Spells (CodePoint.ofChar '\x7b' :: (ws ++ u)) (.object members) := by
  refine .of_succ ⟨_, _, rfl, rfl, by decide, by decide, by decide⟩ fun fuel rest hfuel _ => ?_
  rw [List.length_cons, List.length_append] at hfuel
  have hskip := hws.skip_begins h.begins rest
  have hopen := (h.begins.append rest).skip_ne.2
  rw [(h.begins.append rest).skip, ← hskip] at hopen
  rw [List.cons_append, List.append_assoc, scan_object_of_open hopen, hskip]
  exact h.scanMembers_append (List.nil_append members ▸ once) (by omega)

/-! ## On one line -/

theorem writeItems_singleton (v : Json) :
    writeItems [v] = write v ++ [CodePoint.ofChar ']'] := by
  rw [writeItems, writeItems, List.append_assoc]
  rfl

theorem writeItems_cons_cons (v w : Json) (items : List Json) :
    writeItems (v :: w :: items) =
      write v ++ CodePoint.ofChar ',' :: CodePoint.ofChar ' ' :: writeItems (w :: items) := by
  rw [writeItems, List.append_assoc]
  · rfl
  · exact fun h => nomatch h

theorem writeMembers_singleton (key : Text) (v : Json) :
    writeMembers [(key, v)] = writeString key ++ CodePoint.ofChar ':' ::
      CodePoint.ofChar ' ' :: (write v ++ [CodePoint.ofChar '\x7d']) := by
  rw [writeMembers, writeMembers]
  simp only [List.append_assoc]
  rfl

theorem writeMembers_cons_cons (key : Text) (v : Json) (m : Text × Json) (members : Members) :
    writeMembers ((key, v) :: m :: members) = writeString key ++ CodePoint.ofChar ':' ::
      CodePoint.ofChar ' ' :: (write v ++ CodePoint.ofChar ',' :: CodePoint.ofChar ' ' ::
        writeMembers (m :: members)) := by
  rw [writeMembers]
  · simp only [List.append_assoc]
    rfl
  · exact fun h => nomatch h

theorem spaces_blank : Spaces [CodePoint.ofChar ' '] := List.forall_mem_singleton.2 rfl

theorem spellsItems_writeItems (v : Json) (items : List Json)
    (h : ∀ w ∈ v :: items, Spells (write w) w) :
    SpellsItems (writeItems (v :: items)) (v :: items) := by
  induction items generalizing v with
  | nil =>
    rw [writeItems_singleton]
    exact .last (h v List.mem_cons_self) spaces_nil
  | cons w items ih =>
    rw [writeItems_cons_cons]
    exact .more (h v List.mem_cons_self) spaces_blank
      (ih w fun x hx => h x (List.mem_cons_of_mem v hx))

theorem spellsMembers_writeMembers (m : Text × Json) (members : Members)
    (hkeys : ∀ n ∈ m :: members, n.1.Unpaired)
    (h : ∀ n ∈ m :: members, Spells (write n.2) n.2) :
    SpellsMembers (writeMembers (m :: members)) (m :: members) := by
  induction members generalizing m with
  | nil =>
    rw [writeMembers_singleton]
    exact .last (hkeys m List.mem_cons_self) spaces_blank (h m List.mem_cons_self) spaces_nil
  | cons n members ih =>
    rw [writeMembers_cons_cons]
    exact .more (hkeys m List.mem_cons_self) spaces_blank (h m List.mem_cons_self) spaces_blank
      (ih n (fun x hx => hkeys x (List.mem_cons_of_mem m hx))
        fun x hx => h x (List.mem_cons_of_mem m hx))

/-- **The form on one line** spells a value that a text can spell, by induction on its parts. -/
theorem spells_write (hv : v.IsSpellable) (hfloat : v.HasNoFloat) : Spells (write v) v := by
  induction hv with
  | null => exact spells_null
  | bool b => exact spells_bool b
  | int short => exact spells_int short
  | float x => exact absurd (.self _) (hfloat x)
  | string unpaired => exact spells_string unpaired
  | @array items _ ih =>
    have hitems : ∀ w ∈ items, Spells (write w) w := fun w hw =>
      ih w hw (hfloat.part (.item hw (.self w)))
    cases items with
    | nil => exact spells_emptyArray
    | cons w items =>
      have h := spells_array spaces_nil (spellsItems_writeItems w items hitems)
      exact h
  | @object members once unpaired _ ih =>
    have hmembers : ∀ m ∈ members, Spells (write m.2) m.2 := fun m hm =>
      ih m hm (hfloat.part (.member hm (.self m.2)))
    cases members with
    | nil => exact spells_emptyObject
    | cons m members =>
      have h := spells_object spaces_nil once
        (spellsMembers_writeMembers m members unpaired hmembers)
      exact h

/-! ## Indented -/

/-- Items on lines of their own, and the line of the closing bracket. -/
theorem spellsItems_indentedItems (close : Nat) (v : Json) (items : List Json)
    (h : ∀ w ∈ v :: items, Spells (writeIndented level w) w) :
    ∃ u, SpellsItems u (v :: items) ∧
      Text.joinWith "," (indentedItems level (v :: items)) ++
        (newLine close ++ [CodePoint.ofChar ']']) = newLine level ++ u := by
  have hv := h v List.mem_cons_self
  induction items generalizing v with
  | nil =>
    refine ⟨_, .last hv (spaces_newLine close), ?_⟩
    rw [indentedItems, indentedItems, Text.joinWith_singleton, List.append_assoc]
  | cons w items ih =>
    have hrest : ∀ x ∈ w :: items, Spells (writeIndented level x) x := fun x hx =>
      h x (List.mem_cons_of_mem v hx)
    obtain ⟨u, hu, heq⟩ := ih w hrest (hrest w List.mem_cons_self)
    refine ⟨_, .more hv (spaces_newLine level) hu, ?_⟩
    rw [indentedItems, indentedItems, Text.joinWith_cons_cons, ← indentedItems, List.append_assoc,
      heq, List.append_assoc, List.append_assoc]
    rfl

/-- Members on lines of their own, and the line of the closing brace. -/
theorem spellsMembers_indentedMembers (close : Nat) (m : Text × Json) (members : Members)
    (hkeys : ∀ n ∈ m :: members, n.1.Unpaired)
    (h : ∀ n ∈ m :: members, Spells (writeIndented level n.2) n.2) :
    ∃ u, SpellsMembers u (m :: members) ∧
      Text.joinWith "," (indentedMembers level (m :: members)) ++
        (newLine close ++ [CodePoint.ofChar '\x7d']) = newLine level ++ u := by
  have hkey := hkeys m List.mem_cons_self
  have hm := h m List.mem_cons_self
  induction members generalizing m with
  | nil =>
    refine ⟨_, .last hkey spaces_blank hm (spaces_newLine close), ?_⟩
    rw [indentedMembers, indentedMembers, Text.joinWith_singleton]
    simp only [List.append_assoc]
    rfl
  | cons n members ih =>
    have hkeys' : ∀ x ∈ n :: members, x.1.Unpaired := fun x hx =>
      hkeys x (List.mem_cons_of_mem m hx)
    have hrest : ∀ x ∈ n :: members, Spells (writeIndented level x.2) x.2 := fun x hx =>
      h x (List.mem_cons_of_mem m hx)
    obtain ⟨u, hu, heq⟩ := ih n hkeys' hrest (hkeys' n List.mem_cons_self)
      (hrest n List.mem_cons_self)
    refine ⟨_, .more hkey spaces_blank hm (spaces_newLine level) hu, ?_⟩
    rw [indentedMembers, indentedMembers, Text.joinWith_cons_cons, ← indentedMembers,
      List.append_assoc, heq]
    simp only [List.append_assoc]
    rfl

/-- **The indented form** spells a value that a text can spell, by induction on its parts. -/
theorem spells_writeIndented (hv : v.IsSpellable) (hfloat : v.HasNoFloat) :
    Spells (writeIndented level v) v := by
  induction hv generalizing level with
  | null => exact spells_null
  | bool b => exact spells_bool b
  | int short => exact spells_int short
  | float x => exact absurd (.self _) (hfloat x)
  | string unpaired => exact spells_string unpaired
  | @array items _ ih =>
    have hitems : ∀ w ∈ items, Spells (writeIndented (level + 1) w) w := fun w hw =>
      ih w hw (hfloat.part (.item hw (.self w)))
    cases items with
    | nil => exact spells_emptyArray
    | cons w items =>
      obtain ⟨u, hu, heq⟩ := spellsItems_indentedItems level w items hitems
      have hwrite : writeIndented level (.array (w :: items)) =
          CodePoint.ofChar '[' :: (newLine (level + 1) ++ u) := by
        rw [← heq, writeIndented, List.append_assoc, List.append_assoc]
        · rfl
        · exact fun h => nomatch h
      exact hwrite ▸ spells_array (spaces_newLine _) hu
  | @object members once unpaired _ ih =>
    have hmembers : ∀ m ∈ members, Spells (writeIndented (level + 1) m.2) m.2 := fun m hm =>
      ih m hm (hfloat.part (.member hm (.self m.2)))
    cases members with
    | nil => exact spells_emptyObject
    | cons m members =>
      obtain ⟨u, hu, heq⟩ := spellsMembers_indentedMembers level m members unpaired hmembers
      have hwrite : writeIndented level (.object (m :: members)) =
          CodePoint.ofChar '\x7b' :: (newLine (level + 1) ++ u) := by
        rw [← heq, writeIndented, List.append_assoc, List.append_assoc]
        · rfl
        · exact fun h => nomatch h
      exact hwrite ▸ spells_object (spaces_newLine _) once hu

/-! ## Plain writing -/

theorem isPlain_ofInt (n : Int) : Text.IsPlain (Decimal.ofInt n) := by
  have hnat : Text.IsPlain (Decimal.ofNat n.natAbs) := fun c hc => by
    have hdigit := Decimal.isDigit_of_mem_ofNat hc
    obtain ⟨hlo, hhi⟩ := (Bool.and_eq_true _ _).mp hdigit
    exact ⟨Nat.le_trans (by decide) (of_decide_eq_true hlo),
      (of_decide_eq_true hhi).trans_lt (by decide)⟩
  rw [Decimal.ofInt]
  split
  · exact .cons (by decide) hnat
  · exact hnat

mutual

/-- **A value is written plainly.** -/
theorem isPlain_write : ∀ v : Json, v.HasNoFloat → Text.IsPlain (write v)
  | .null, _ => by decide
  | .bool true, _ => by decide
  | .bool false, _ => by decide
  | .int n, _ => isPlain_ofInt n
  | .float x, h => absurd (.self _) (h x)
  | .string s, _ => isPlain_writeString s
  | .array items, h => .cons (by decide) (isPlain_writeItems items fun w hw =>
      h.part (.item hw (.self w)))
  | .object members, h => .cons (by decide) (isPlain_writeMembers members fun m hm =>
      h.part (.member hm (.self m.2)))

/-- Items are written plainly. -/
theorem isPlain_writeItems : ∀ items : List Json, (∀ v ∈ items, v.HasNoFloat) →
    Text.IsPlain (writeItems items)
  | [], _ => by decide
  | v :: items, h => by
    have hv := isPlain_write v (h v List.mem_cons_self)
    have hitems := isPlain_writeItems items fun w hw => h w (List.mem_cons_of_mem v hw)
    cases items with
    | nil => exact writeItems_singleton v ▸ hv.append hitems
    | cons w items =>
      rw [writeItems_cons_cons]
      exact hv.append (.cons (by decide) (.cons (by decide) hitems))

/-- Members are written plainly. -/
theorem isPlain_writeMembers : ∀ members : Members, (∀ m ∈ members, m.2.HasNoFloat) →
    Text.IsPlain (writeMembers members)
  | [], _ => by decide
  | (key, v) :: members, h => by
    have hkey := isPlain_writeString key
    have hv := isPlain_write v (h (key, v) List.mem_cons_self)
    have hmembers := isPlain_writeMembers members fun m hm => h m (List.mem_cons_of_mem _ hm)
    cases members with
    | nil =>
      rw [writeMembers_singleton]
      exact hkey.append (.cons (by decide) (.cons (by decide) (hv.append hmembers)))
    | cons m members =>
      rw [writeMembers_cons_cons]
      exact hkey.append (.cons (by decide) (.cons (by decide)
        (hv.append (.cons (by decide) (.cons (by decide) hmembers)))))

end

/-! ## Reading -/

/-- **A text that spells a value is read**, also with white space after it. -/
theorem Spells.read_append (h : Spells t v) (hws : Spaces ws) : read (t ++ ws) = .ok v := by
  have hmark : ¬(t ++ ws).head?.any (·.val = 0xFEFF) = true := by
    obtain ⟨c, r, rfl, -, -, -, hne⟩ := h.begins
    exact fun h => hne (of_decide_eq_true h)
  have hends : Ends ws := by
    rw [← List.append_nil ws]
    exact hws.ends fun _ h => (nomatch h)
  have hscan := h.scan_append (2 * (t ++ ws).length + 2) ws
    (by rw [List.length_append]; omega) hends
  have hskip : skip ws = [] := by
    have h := hws.skip_append []
    rwa [List.append_nil] at h
  rw [read, scanAll, if_neg hmark, (h.begins.append ws).skip, hscan]
  simp only [hskip, if_true]
  rfl

/-- **What is written is read back.** -/
theorem read_write (hv : v.IsSpellable) (hfloat : v.HasNoFloat) : read (write v) = .ok v := by
  rw [← List.append_nil (write v)]
  exact (spells_write hv hfloat).read_append spaces_nil

/-- **What is written indented is read back**, also if the line is ended. -/
theorem read_writeIndented (hv : v.IsSpellable) (hfloat : v.HasNoFloat) (hws : Spaces ws) :
    read (writeIndented level v ++ ws) = .ok v :=
  (spells_writeIndented hv hfloat).read_append hws

end Json

end BuildLint
