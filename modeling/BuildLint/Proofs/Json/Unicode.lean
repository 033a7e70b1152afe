import BuildLint.Json.Access
import BuildLint.Proofs.Json.Parts
import BuildLint.Proofs.Steps
import BuildLint.Proofs.Text.Unicode

/-!
# Proofs/Json/Unicode — values whose texts are Unicode text

Every step into such a value leads to such a value again, and what a message shows of one is Unicode
text.

* `Json.IsUnicode` — no text in a value, and no key, holds half of a surrogate pair.
* `IsUnicode.iterate`, `IsUnicode.element`, … — where the steps lead.
* `IsUnicode.plain` — what a message shows.
-/

namespace BuildLint

open Text

/-! ## Numbers -/

theorem Decimal.isUnicode_ofNat (n : Nat) : IsUnicode (ofNat n) := fun c hc => by
  obtain ⟨d, -, rfl⟩ := List.mem_map.1 hc
  exact CodePoint.isSurrogate_ofChar d

theorem Decimal.isUnicode_ofInt (n : Int) : IsUnicode (ofInt n) := by
  rw [ofInt]
  split <;> simp [isUnicode_ofNat]

namespace Binary64

variable {digits : Text}

theorem isUnicode_zeros (n : Nat) : IsUnicode (zeros n) := isUnicode_run n '0'

theorem isUnicode_positional (h : IsUnicode digits) (scale : Int) :
    IsUnicode (positional digits scale) := by
  rw [positional]
  split_ifs
  · simp [h, isUnicode_zeros]
  · simp [h, isUnicode_zeros]
  · simp [h.of_subset (List.take_subset _ _), h.of_subset (List.drop_subset _ _)]

theorem isUnicode_scientific (h : IsUnicode digits) (scale : Int) :
    IsUnicode (scientific digits scale) := by
  have hfraction : IsUnicode (if digits.length = 1 then [] else "." ++ digits.drop 1) := by
    split
    · exact isUnicode_nil
    · exact isUnicode_append.2 ⟨isUnicode_ofString _, h.of_subset (List.drop_subset _ _)⟩
  rw [scientific]
  refine isUnicode_append.2 ⟨isUnicode_append.2 ⟨isUnicode_append.2 ⟨isUnicode_append.2
    ⟨h.of_subset (List.take_subset _ _), hfraction⟩, ?_⟩, isUnicode_zeros _⟩,
    Decimal.isUnicode_ofNat _⟩
  split <;> exact isUnicode_ofString _

theorem isUnicode_renderMagnitude (layout : Layout) (m : Nat) (e : Int) :
    IsUnicode (renderMagnitude layout m e) := by
  have hdigits := (Decimal.isUnicode_ofNat (shortest m e).1).of_subset
    (stripRight_subset (· = '0') (Decimal.ofNat (shortest m e).1))
  rw [renderMagnitude]
  dsimp only
  split_ifs
  · exact isUnicode_ofString _
  · exact isUnicode_positional hdigits _
  · exact isUnicode_scientific hdigits _

/-- **A number is laid out** in digits, points and signs. -/
theorem isUnicode_render {layout : Layout} (hinfinity : IsUnicode layout.infinity)
    (hnan : IsUnicode layout.nan) (x : Binary64) : IsUnicode (x.render layout) := by
  cases x with
  | nan => exact hnan
  | infinity negative => exact isUnicode_append.2 ⟨isUnicode_ofString _, hinfinity⟩
  | finite negative m e =>
    exact isUnicode_append.2 ⟨isUnicode_ofString _, isUnicode_renderMagnitude _ _ _⟩

end Binary64

namespace Json

/-- **A value whose texts are Unicode text**, keys included. -/
inductive IsUnicode : Json → Prop
  | null : IsUnicode .null
  | bool (b) : IsUnicode (.bool b)
  | int (n) : IsUnicode (.int n)
  | float (x) : IsUnicode (.float x)
  | string {s} (text : s.IsUnicode) : IsUnicode (.string s)
  | array {items} (parts : ∀ v ∈ items, IsUnicode v) : IsUnicode (.array items)
  | object {members : Members} (keys : ∀ m ∈ members, m.1.IsUnicode)
      (parts : ∀ m ∈ members, IsUnicode m.2) : IsUnicode (.object members)

@[simp] theorem isUnicode_int (n : Int) : IsUnicode (.int n) := .int n

@[simp] theorem isUnicode_string {s : Text} : IsUnicode (.string s) ↔ s.IsUnicode :=
  ⟨fun h => by cases h with | string text => exact text, .string⟩

@[simp] theorem isUnicode_array {items : List Json} :
    IsUnicode (.array items) ↔ ∀ v ∈ items, v.IsUnicode :=
  ⟨fun h => by cases h with | array parts => exact parts, .array⟩

@[simp] theorem isUnicode_object {members : Members} :
    IsUnicode (.object members) ↔ ∀ m ∈ members, m.1.IsUnicode ∧ m.2.IsUnicode := by
  constructor
  · intro h
    cases h with
    | object keys parts => exact fun m hm => ⟨keys m hm, parts m hm⟩
  · exact fun h => .object (fun m hm => (h m hm).1) fun m hm => (h m hm).2

namespace IsUnicode

variable {v w key : Json} {k : Text} {items : List Json} {members : Members}

theorem empty_array : IsUnicode (.array []) := by simp

theorem empty_object : IsUnicode (.object []) := by simp

/-! ## Steps into a value -/

theorem orElse (hv : v.IsUnicode) (hw : w.IsUnicode) : (v.orElse w).IsUnicode := by
  rw [Json.orElse]
  split
  · exact hv
  · exact hw

theorem getD {o : Option Json} (h : ∀ v ∈ o, v.IsUnicode) (hw : w.IsUnicode) :
    (o.getD w).IsUnicode := by
  cases o with
  | none => exact hw
  | some v => exact h v rfl

theorem lookup? {o : Option Json} (hv : v.IsUnicode) (h : v.lookup? k = .ok o) :
    ∀ w ∈ o, w.IsUnicode := by
  cases v with
  | object members =>
    obtain rfl := Except.ok.inj h
    exact fun w hw => (isUnicode_object.1 hv _ (Keyed.mem_of_get? hw)).2
  | _ => cases h

theorem lookup (hv : v.IsUnicode) (h : v.lookup k = .ok w) : w.IsUnicode := by
  obtain ⟨o, ho, h⟩ := Steps.bind_eq_ok.1 h
  obtain rfl := Except.ok.inj h
  exact getD (hv.lookup? ho) .null

theorem field (hv : v.IsUnicode) (h : v.field k = .ok w) : w.IsUnicode := by
  cases v with
  | object members =>
    rw [Json.field] at h
    cases hm : Keyed.get? members k with
    | none =>
      rw [hm] at h
      cases h
    | some u =>
      rw [hm] at h
      obtain rfl := Except.ok.inj h
      exact (isUnicode_object.1 hv _ (Keyed.mem_of_get? hm)).2
  | _ => cases h

/-- **The values to go through.** -/
theorem iterate (hv : v.IsUnicode) (h : v.iterate = .ok items) : ∀ w ∈ items, w.IsUnicode := by
  cases v with
  | array parts =>
    obtain rfl := Except.ok.inj h
    exact isUnicode_array.1 hv
  | object members =>
    obtain rfl := Except.ok.inj h
    intro w hw
    obtain ⟨m, hm, rfl⟩ := List.mem_map.1 hw
    exact .string (isUnicode_object.1 hv m hm).1
  | string s =>
    obtain rfl := Except.ok.inj h
    intro w hw
    obtain ⟨c, hc, rfl⟩ := List.mem_map.1 hw
    exact .string (isUnicode_cons.2 ⟨isUnicode_string.1 hv c hc, isUnicode_nil⟩)
  | _ => cases h

theorem mem_of_itemAt? {α : Type} {xs : List α} {n : Int} {x : α} (h : itemAt? xs n = some x) :
    x ∈ xs := by
  rw [itemAt?] at h
  split_ifs at h
  · exact List.mem_of_getElem? h
  · exact List.mem_of_getElem? h

theorem ok_of_elim {α : Type} {o : Option α} {fault : AccessFault} {f : α → Access Json}
    (h : o.elim (.error fault) f = .ok w) : ∃ x, o = some x ∧ f x = .ok w := by
  cases o with
  | none => cases h
  | some x => exact ⟨x, rfl, h⟩

/-- **The part under a key** that is a value itself. -/
theorem element (hv : v.IsUnicode) (h : v.element key = .ok w) : w.IsUnicode := by
  cases v with
  | array items =>
    rw [Json.element] at h
    split at h
    · obtain ⟨u, hu, h⟩ := ok_of_elim h
      obtain rfl := Except.ok.inj h
      exact isUnicode_array.1 hv _ (mem_of_itemAt? hu)
    · cases h
  | string s =>
    rw [Json.element] at h
    split at h
    · obtain ⟨c, hc, h⟩ := ok_of_elim h
      obtain rfl := Except.ok.inj h
      exact .string (isUnicode_cons.2 ⟨isUnicode_string.1 hv c (mem_of_itemAt? hc), isUnicode_nil⟩)
    · cases h
  | object members =>
    cases key with
    | string k => exact hv.field h
    | _ => cases h
  | _ => cases h

theorem text {s : Text} (hv : v.IsUnicode) (h : v.text = .ok s) : s.IsUnicode := by
  cases v with
  | string t =>
    obtain rfl := Except.ok.inj h
    exact isUnicode_string.1 hv
  | _ => cases h

theorem texts {ts : List Text} (hitems : ∀ v ∈ items, v.IsUnicode) (h : texts items = .ok ts) :
    ∀ t ∈ ts, t.IsUnicode :=
  Steps.forall_mem_of_mapM h fun v hv _ ht => (hitems v hv).text ht

/-! ## What a message shows -/

mutual

theorem display : ∀ {v : Json}, v.IsUnicode → v.display.IsUnicode
  | .null, _ => isUnicode_ofString _
  | .bool true, _ => isUnicode_ofString _
  | .bool false, _ => isUnicode_ofString _
  | .int n, _ => Decimal.isUnicode_ofInt n
  | .float x, _ => Binary64.isUnicode_render (isUnicode_ofString _) (isUnicode_ofString _) x
  | .string s, h => (isUnicode_string.1 h).quoted
  | .array _, h => by
    have hitems := IsUnicode.joinWith (isUnicode_ofString ", ") (displayItems (isUnicode_array.1 h))
    rw [Json.display]
    simp [hitems]
  | .object _, h => by
    have hmembers := IsUnicode.joinWith (isUnicode_ofString ", ")
      (displayMembers (isUnicode_object.1 h))
    rw [Json.display]
    simp [hmembers]

theorem displayItems : ∀ {items : List Json}, (∀ v ∈ items, v.IsUnicode) →
    ∀ t ∈ Json.displayItems items, t.IsUnicode
  | [], _ => fun _ h => absurd h List.not_mem_nil
  | v :: _, h =>
    List.forall_mem_cons.2 ⟨display (h v List.mem_cons_self),
      displayItems fun w hw => h w (List.mem_cons_of_mem v hw)⟩

theorem displayMembers : ∀ {members : Members}, (∀ m ∈ members, m.1.IsUnicode ∧ m.2.IsUnicode) →
    ∀ t ∈ displayMembers members, t.IsUnicode
  | [], _ => fun _ h => absurd h List.not_mem_nil
  | (k, v) :: members, h => by
    obtain ⟨hk, hv⟩ := h (k, v) List.mem_cons_self
    have hfirst : (k.quoted ++ ": " ++ v.display).IsUnicode :=
      isUnicode_append.2 ⟨isUnicode_append.2 ⟨hk.quoted, isUnicode_ofString _⟩, display hv⟩
    exact List.forall_mem_cons.2
      ⟨hfirst, displayMembers fun m hm => h m (List.mem_cons_of_mem _ hm)⟩

end

/-- **A value inside running text.** -/
theorem plain (hv : v.IsUnicode) : v.plain.IsUnicode := by
  cases v with
  | string s => exact isUnicode_string.1 hv
  | _ => exact hv.display

end IsUnicode

end Json

end BuildLint
