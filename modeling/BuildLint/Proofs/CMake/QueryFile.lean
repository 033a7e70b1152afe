import BuildLint.Proofs.CMake.QueryDirectory
import BuildLint.Proofs.Json.RoundTrip
import BuildLint.Proofs.Report.Unreadable

/-!
# Proofs/CMake/QueryFile — the query heals itself

Whatever a file at the query's place holds, it is replaced unless it asks for the same: a file that
cannot be read, one that is no JSON text, and one that asks for something else.  Two kinds of files
are treated in another way.  Bytes that are no text and numbers that are too long stop the request
before anything is written.  And a version counts by its value, so a file that asks for the versions
`2.0` and `true` is left alone.

* `Query.Asks` — the documents that ask for both kinds of data, each in some version.
* `same_document_iff` — the documents that count as the query.
* `IsPut` — the query is in place.
* `create_heals` — what becomes of the query's file, for the query itself and within a request.
-/

namespace BuildLint

/-! ## Documents that count as the query -/

namespace Json

variable {v : Json} {members : Members}

theorem same_string_iff {s : Text} : v.same (.string s) = true ↔ v = .string s := by
  cases v <;> simp [same, number?]

/-- A value that counts as an object is one. -/
theorem same_object_iff : v.same (.object members) = true ↔
    ∃ own, v = .object own ∧ own.length = members.length ∧ sameMembers own members = true := by
  cases v <;> simp [same, number?]

theorem same_array_iff {items : List Json} : v.same (.array items) = true ↔
    ∃ own, v = .array own ∧ sameItems own items = true := by
  cases v <;> simp [same, number?]

theorem sameMembers_cons_iff {k : Text} {own : Members} :
    sameMembers ((k, v) :: own) members = true ↔
      (∃ w, Keyed.get? members k = some w ∧ v.same w = true) ∧ sameMembers own members = true := by
  rw [sameMembers, Bool.and_eq_true]
  refine and_congr_left fun _ => ?_
  cases Keyed.get? members k <;> simp

theorem sameItems_pair_iff {items : List Json} {a b : Json} : sameItems items [a, b] = true ↔
    ∃ r s, items = [r, s] ∧ r.same a = true ∧ s.same b = true := by
  constructor
  · intro h
    obtain _ | ⟨r, _ | ⟨s, _ | ⟨t, rest⟩⟩⟩ := items
    · simp [sameItems] at h
    · simp [sameItems] at h
    · simp only [sameItems, Bool.and_true, Bool.and_eq_true] at h
      exact ⟨r, s, rfl, h⟩
    · simp [sameItems] at h
  · rintro ⟨r, s, rfl, hr, hs⟩
    simp only [sameItems, hr, hs, Bool.and_true]

end Json

namespace Query

variable {v r : Json} {kind : Text}

/-- **A request** for one kind of data in some version. -/
inductive IsRequest (kind : Text) (version : Json) : Json → Prop
  | kindFirst : IsRequest kind version (.object [("kind", .string kind), ("version", version)])
  | versionFirst : IsRequest kind version (.object [("version", version), ("kind", .string kind)])

/-- **A document asks** for the code model and the toolchains, each in some version, and for nothing
else. -/
inductive Asks (codemodel toolchains : Json) : Json → Prop
  | intro {r s : Json} (hr : IsRequest "codemodel" codemodel r)
      (hs : IsRequest "toolchains" toolchains s) :
      Asks codemodel toolchains (.object [("requests", .array [r, s])])

theorem asks_document : Asks (.int 2) (.int 1) document := .intro .kindFirst .kindFirst

theorem get?_request {k : Text} {a b w : Json} :
    Keyed.get? ([("kind", a), ("version", b)] : Json.Members) k = some w ↔
      k = "kind" ∧ w = a ∨ k = "version" ∧ w = b := by
  have hne : ("kind" : Text) ≠ "version" := by decide
  rw [Keyed.get?, Keyed.get?, Keyed.get?]
  split_ifs with hkind hversion
  · subst hkind
    simp [hne, eq_comm]
  · subst hversion
    simp [hne.symm, eq_comm]
  · simp [Ne.symm hkind, Ne.symm hversion]

/-- **What counts as a request** is one, in a version of the same value. -/
theorem same_request_iff (h : r.IsSpellable) {n : Int} : r.same (request kind n) = true ↔
    ∃ version, IsRequest kind version r ∧ version.same (.int n) = true := by
  rw [request, Json.same_object_iff]
  constructor
  · rintro ⟨own, rfl, hlength, hsame⟩
    obtain ⟨⟨k, w⟩, ⟨l, u⟩, rfl⟩ := List.length_eq_two.1 hlength
    have honce : k ≠ l := by
      have hnodup := (Json.isSpellable_object.1 h).1
      simpa using hnodup
    obtain ⟨⟨x, hx, hw⟩, hrest⟩ := Json.sameMembers_cons_iff.1 hsame
    obtain ⟨⟨y, hy, hu⟩, -⟩ := Json.sameMembers_cons_iff.1 hrest
    rcases get?_request.1 hx with ⟨rfl, rfl⟩ | ⟨rfl, rfl⟩ <;>
      rcases get?_request.1 hy with ⟨rfl, rfl⟩ | ⟨rfl, rfl⟩
    · exact absurd rfl honce
    · obtain rfl := Json.same_string_iff.1 hw
      exact ⟨u, .kindFirst, hu⟩
    · obtain rfl := Json.same_string_iff.1 hu
      exact ⟨w, .versionFirst, hw⟩
    · exact absurd rfl honce
  · rintro ⟨version, hr, hversion⟩
    let requested : Json.Members := [("kind", .string kind), ("version", .int n)]
    have hkind : ∃ x, requested.get? "kind" = some x ∧ (Json.string kind).same x = true :=
      ⟨_, get?_request.2 (.inl ⟨rfl, rfl⟩), Json.same_string_iff.2 rfl⟩
    have hvalue : ∃ x, requested.get? "version" = some x ∧ version.same x = true :=
      ⟨_, get?_request.2 (.inr ⟨rfl, rfl⟩), hversion⟩
    cases hr with
    | kindFirst =>
      exact ⟨_, rfl, rfl, Json.sameMembers_cons_iff.2 ⟨hkind, Json.sameMembers_cons_iff.2
        ⟨hvalue, rfl⟩⟩⟩
    | versionFirst =>
      exact ⟨_, rfl, rfl, Json.sameMembers_cons_iff.2 ⟨hvalue, Json.sameMembers_cons_iff.2
        ⟨hkind, rfl⟩⟩⟩

/-- **What counts as the query** asks for the same in versions of the same value. -/
theorem same_document_iff (h : v.IsSpellable) : v.same document = true ↔
    ∃ codemodel toolchains, Asks codemodel toolchains v ∧ codemodel.same (.int 2) = true ∧
      toolchains.same (.int 1) = true := by
  have hrequests : ∀ {r s : Json}, Json.IsSpellable (.object [("requests", .array [r, s])]) →
      r.IsSpellable ∧ s.IsSpellable := by
    intro r s h
    simpa using ((Json.isSpellable_object.1 h).2 _ List.mem_cons_self).2
  rw [document, Json.same_object_iff]
  constructor
  · rintro ⟨own, rfl, hlength, hsame⟩
    obtain ⟨⟨k, w⟩, rfl⟩ := List.length_eq_one_iff.1 hlength
    obtain ⟨⟨x, hx, hw⟩, -⟩ := Json.sameMembers_cons_iff.1 hsame
    rw [Keyed.get?, Keyed.get?] at hx
    split at hx
    · subst_vars
      obtain rfl := Option.some.inj hx
      obtain ⟨items, rfl, hitems⟩ := Json.same_array_iff.1 hw
      obtain ⟨r, s, rfl, hr, hs⟩ := Json.sameItems_pair_iff.1 hitems
      obtain ⟨hspell, hspell'⟩ := hrequests h
      obtain ⟨codemodel, hcodemodel, hsame⟩ := (same_request_iff hspell).1 hr
      obtain ⟨toolchains, htoolchains, hsame'⟩ := (same_request_iff hspell').1 hs
      exact ⟨codemodel, toolchains, .intro hcodemodel htoolchains, hsame, hsame'⟩
    · cases hx
  · rintro ⟨codemodel, toolchains, ⟨hr, hs⟩, hsame, hsame'⟩
    obtain ⟨hspell, hspell'⟩ := hrequests h
    refine ⟨_, rfl, rfl, Json.sameMembers_cons_iff.2 ⟨⟨_, rfl, ?_⟩, rfl⟩⟩
    exact Json.same_array_iff.2 ⟨_, rfl, Json.sameItems_pair_iff.2 ⟨_, _, rfl,
      (same_request_iff hspell).2 ⟨_, hr, hsame⟩, (same_request_iff hspell').2 ⟨_, hs, hsame'⟩⟩⟩

end Query

/-! ## Files that hold the query -/

/-- **A file says a value**: its text spells it. -/
def Disk.Says (d : Disk) (p : Text) (v : Json) : Prop :=
  ∃ t, d.readText p = .ok t ∧ Json.read t = .ok v

namespace Query

variable {d : Disk} {api p path : Text} {v : Json} {host : Host} {w u : World} {fault : Fault}

theorem isSpellable_of_said (h : d.Says p v) : v.IsSpellable := by
  obtain ⟨s, hs, hread⟩ := h
  obtain ⟨t, ht, -, rfl⟩ := Disk.readText_eq_ok.1 hs
  exact Json.read_isSpellable ht.unifyLineEnds hread

/-- **The query is in place**: its file asks for both kinds of data, in versions of the values two
and one. -/
def IsPut (d : Disk) (api : Text) : Prop :=
  ∃ v codemodel toolchains, d.Says (file api) v ∧ Asks codemodel toolchains v ∧
    codemodel.same (.int 2) = true ∧ toolchains.same (.int 1) = true

theorem isPut_iff : IsPut d api ↔ ∃ v, d.Says (file api) v ∧ v.same document = true := by
  constructor
  · rintro ⟨v, codemodel, toolchains, hv, hasks⟩
    exact ⟨v, hv, (same_document_iff (isSpellable_of_said hv)).2 ⟨codemodel, toolchains, hasks⟩⟩
  · rintro ⟨v, hv, hsame⟩
    obtain ⟨codemodel, toolchains, hasks⟩ := (same_document_iff (isSpellable_of_said hv)).1 hsame
    exact ⟨v, codemodel, toolchains, hv, hasks⟩

/-- **A renewed file** says exactly what is to be asked. -/
theorem says_document (h : d.readBytes (file api) = .ok (Utf8.encode document.write)) :
    d.Says (file api) document := by
  have hspellable : document.IsSpellable := by simp +decide [document, request]
  have hfloat : document.HasNoFloat := by simp [document, request]
  exact ⟨_, Disk.readText_of_isPlain (Json.isPlain_write _ hfloat) h,
    Json.read_write hspellable hfloat⟩

theorem isPut_of_says_document (h : d.Says (file api) document) : IsPut d api :=
  ⟨document, .int 2, .int 1, h, asks_document, rfl, rfl⟩

/-- **A file that baffles** stops the question whether it is the query. -/
theorem isInPlace_eq_error_iff : isInPlace d p = .error fault ↔ d.Baffles p fault := by
  constructor
  · intro h
    rw [isInPlace] at h
    split at h
    · cases h
    · cases h
      exact .notText (Disk.readText_eq_notText.1 ‹_›)
    · split at h
      · cases h
      · split at h
        · cases h
          exact .badNumber (Disk.holdsLongNumber_iff.2 ⟨_, _, ‹_›, ‹_›, ‹_›⟩)
        · cases h
  · intro h
    cases h with
    | notText h => rw [isInPlace, Disk.readText_eq_notText.2 h]
    | badNumber h =>
      obtain ⟨t, problem, htext, hread, hproblem⟩ := Disk.holdsLongNumber_iff.1 h
      simp only [isInPlace, htext, hread, hproblem, if_true]

theorem isInPlace_eq_true_iff :
    isInPlace d p = .ok true ↔ ∃ v, d.Says p v ∧ v.same document = true := by
  constructor
  · intro h
    rw [isInPlace] at h
    split at h
    · cases h
    · cases h
    · split at h
      · exact ⟨_, ⟨_, ‹_›, ‹_›⟩, Except.ok.inj h⟩
      · split at h <;> cases h
  · rintro ⟨v, ⟨t, htext, hread⟩, hsame⟩
    simp only [isInPlace, htext, hread, hsame]

theorem isThere_of_said (h : d.Says p v) : d.isThere p = true := by
  obtain ⟨s, hs, -⟩ := h
  obtain ⟨t, -, hbytes, -⟩ := Disk.readText_eq_ok.1 hs
  exact Disk.isThere_of_readBytes hbytes

/-! ## Putting the query in place -/

theorem create_of_baffles (h : w.disk.Baffles (file api) fault) :
    create api host w = .error fault w := by
  obtain ⟨bytes, hbytes⟩ := h.exists_readBytes
  rw [create_apply, if_pos (Disk.isThere_of_readBytes hbytes), isInPlace_eq_error_iff.2 h]

theorem create_of_isPut (h : IsPut w.disk api) : create api host w = .ok (file api) w := by
  obtain ⟨v, hv, hsame⟩ := isPut_iff.1 h
  rw [create_apply, if_pos (isThere_of_said hv), isInPlace_eq_true_iff.2 ⟨v, hv, hsame⟩]

theorem create_of_stale (hbaffles : ∀ fault, ¬w.disk.Baffles (file api) fault)
    (hput : ¬IsPut w.disk api) :
    create api host w = settle api (renew api w.disk) host w := by
  rw [create_apply]
  by_cases hthere : w.disk.isThere (file api) = true
  · rw [if_pos hthere]
    cases hplace : isInPlace w.disk (file api) with
    | error fault => exact absurd (isInPlace_eq_error_iff.1 hplace) (hbaffles fault)
    | ok done =>
      cases done with
      | false => rfl
      | true => exact absurd (isPut_iff.2 (isInPlace_eq_true_iff.1 hplace)) hput
  · rw [if_neg hthere]

/-- **Where the query is not in place** it is renewed if there is room for it. -/
theorem create_of_stale_of_hasRoom (host : Host)
    (hbaffles : ∀ fault, ¬w.disk.Baffles (file api) fault)
    (hput : ¬IsPut w.disk api) (hroom : HasRoom w.disk api) :
    ∃ e, create api host w = .ok (file api) { w with disk := e } ∧ Renews w.disk api e := by
  obtain ⟨e, hrun, hrenews⟩ := exists_renews_of_hasRoom hroom
  refine ⟨e, ?_, hrenews⟩
  rw [create_of_stale hbaffles hput, hrun]
  rfl

theorem create_of_stale_of_not_hasRoom (host : Host)
    (hbaffles : ∀ fault, ¬w.disk.Baffles (file api) fault)
    (hput : ¬IsPut w.disk api) (hroom : ¬HasRoom w.disk api) :
    ∃ fault e, create api host w =
      .error (.failure (.metadata (.queryUnwritable fault))) { w with disk := e } := by
  rw [create_of_stale hbaffles hput]
  cases hrun : renew api w.disk with
  | ok done e => exact absurd (hasRoom_of_renew hrun) hroom
  | error fault e => exact ⟨fault, e, rfl⟩

/-- **Whoever has put the query in place** has found it there, or has renewed it. -/
theorem create_ok_cases (h : create api host w = .ok path u) :
    u = w ∧ path = file api ∧ IsPut w.disk api ∨ ∃ e, u = { w with disk := e } ∧
      path = file api ∧ HasRoom w.disk api ∧ Renews w.disk api e := by
  by_cases hbaffles : ∃ fault, w.disk.Baffles (file api) fault
  · obtain ⟨fault, hfault⟩ := hbaffles
    rw [create_of_baffles hfault] at h
    cases h
  by_cases hput : IsPut w.disk api
  · rw [create_of_isPut hput] at h
    cases h
    exact .inl ⟨rfl, rfl, hput⟩
  have hbaffles := not_exists.1 hbaffles
  by_cases hroom : HasRoom w.disk api
  · obtain ⟨e, hrun, hrenews⟩ := create_of_stale_of_hasRoom host hbaffles hput hroom
    cases hrun.symm.trans h
    exact .inr ⟨e, rfl, rfl, hroom, hrenews⟩
  · obtain ⟨fault, e, hrun⟩ := create_of_stale_of_not_hasRoom host hbaffles hput hroom
    cases hrun.symm.trans h

theorem isPut_of_create (h : create api host w = .ok path u) :
    path = file api ∧ IsPut u.disk api := by
  rcases create_ok_cases h with ⟨rfl, hpath, hput⟩ | ⟨e, rfl, hpath, -, hrenews⟩
  · exact ⟨hpath, hput⟩
  · exact ⟨hpath, isPut_of_says_document (says_document hrenews.written)⟩

/-- **Putting the query in place takes a path**: it leads to the query's file, or to a location on
the way there where nothing stands yet. -/
def Takes (d : Disk) (api p : Text) : Prop :=
  Disk.place d.here p = Disk.place d.here (file api) ∨
    IsAbove d api (Disk.place d.here p) ∧ d.look? p = none

/-- **Any other path** is left as it is. -/
theorem look?_of_create (h : create api host w = .ok path u) {l : Location}
    (hp : w.disk.locate p = .ok l) (htakes : ¬Takes w.disk api p) :
    u.disk.look? p = w.disk.look? p := by
  obtain rfl := Disk.locate_eq_ok hp
  rw [Takes, not_or, Disk.look?_of_locate hp] at htakes
  obtain ⟨hfile, hmissing⟩ := htakes
  rcases create_ok_cases h with ⟨rfl, -⟩ | ⟨e, rfl, -, hroom, hrenews⟩
  · rfl
  have hdirectory : ∀ k, w.disk.find? k = some .directory → e.find? k = some .directory := by
    intro k hk
    by_cases habove : IsAbove w.disk api k
    · exact hrenews.above k habove
    · rw [hrenews.elsewhere k habove fun heq => hroom.isFile (heq ▸ hk), hk]
  have hlocate : e.locate p = .ok (Disk.place w.disk.here p) := by
    rw [Disk.locate] at hp ⊢
    split at hp
    · cases hp
    · rw [if_neg ‹_›, hrenews.here]
      exact Disk.follow_eq_ok_of_directories hdirectory hp
  rw [Disk.look?_of_locate hlocate, Disk.look?_of_locate hp]
  by_cases habove : IsAbove w.disk api (Disk.place w.disk.here p)
  · have hstood : w.disk.find? (Disk.place w.disk.here p) = some .directory :=
      (Disk.IsOpen.find?_eq hroom.isOpen habove).resolve_right fun hnone => hmissing ⟨habove, hnone⟩
    rw [hstood, hrenews.above _ habove]
  · exact hrenews.elsewhere _ habove hfile

/-- Nothing but the disk changes. -/
theorem after_create (api : Text) (host : Host) (w : World) :
    ∃ e, (create api).after host w = { w with disk := e } := by
  rcases create_cases api host w with ⟨fault, hrun⟩ | hrun | hrun
  · exact ⟨w.disk, Action.after_of_eq_error hrun⟩
  · exact ⟨w.disk, Action.after_of_eq_ok hrun⟩
  · refine ⟨diskOf (renew api w.disk), ?_⟩
    rw [Action.after, hrun, ← Action.after, after_settle]

end Query

/-! ## Asking CMake -/

namespace Event

variable {host : Host} {w v : World} {es : List Event}

/-- Whoever only talks leaves the disk as it is, and starts nothing. -/
theorem replay_tells (h : ∀ e ∈ es, ∃ message, e = .tell message)
    (hreplay : replay host w es = some v) : v.disk = w.disk ∧ v.calls = w.calls := by
  induction es generalizing w with
  | nil =>
    obtain rfl := Option.some.inj hreplay
    exact ⟨rfl, rfl⟩
  | cons e rest ih =>
    obtain ⟨⟨message, rfl⟩, hrest⟩ := List.forall_mem_cons.1 h
    exact ih (w := { w with messages := w.messages ++ [message] }) hrest hreplay

end Event

namespace Index

variable {host : Host} {w : World} {buildRoot : Text}

/-- **CMake has not been started**, or it has been once, and has left its disk behind. -/
def Starts (host : Host) (w v : World) : Prop :=
  (v.disk = w.disk ∧ v.calls = w.calls) ∨
    ∃ call, v.calls = w.calls ++ [call] ∧ v.disk = host.left w.calls call w.disk

theorem executable_cases (name : Text) (host : Host) (w : World) :
    (∃ fault, Action.executable name host w = .error fault w) ∨
      ∃ path, Action.executable name host w = .ok path w := by
  simp only [Action.executable, Action.bind_apply, Action.read_apply]
  cases host.executable name with
  | none => exact .inl ⟨_, rfl⟩
  | some path => cases path with
    | nil => exact .inl ⟨_, rfl⟩
    | cons c rest => exact .inr ⟨_, rfl⟩

theorem reconfigure_starts (buildRoot : Text) (host : Host) (w : World) :
    Starts host w ((reconfigure buildRoot).after host w) := by
  rw [reconfigure, Action.after, Action.bind_apply]
  rcases executable_cases "cmake" host w with ⟨fault, hrun⟩ | ⟨cmake, hrun⟩
  · rw [hrun]
    exact .inl ⟨rfl, rfl⟩
  · rw [hrun]
    refine .inr ⟨⟨[cmake, buildRoot], none, none⟩, ?_⟩
    simp only [Action.bind_apply, Action.tell_apply, Action.launch_apply]
    cases host.outcome w.calls ⟨[cmake, buildRoot], none, none⟩ w.disk with
    | error fault => exact ⟨rfl, rfl⟩
    | ok outcome =>
      simp only [Action.ofExcept_ok_apply]
      split_ifs <;> exact ⟨rfl, rfl⟩

/-- **What follows a query in place** starts CMake at most once. -/
theorem answer_starts (buildRoot : Text) (host : Host) (w : World) :
    Starts host w ((answer buildRoot).after host w) := by
  have hreconfigure := reconfigure_starts buildRoot host w
  rw [Action.after] at hreconfigure
  rw [answer, Action.after, Action.bind_apply]
  cases hrun : reconfigure buildRoot host w with
  | error fault v =>
    rw [hrun] at hreconfigure
    exact hreconfigure
  | ok done v =>
    rw [hrun] at hreconfigure
    have hrest : (load (apiDirectory buildRoot) >>= fun index =>
        Action.ofExcept (Version.check index.version Version.minimum) >>= fun _ =>
          pure index).Does fun e => ∃ message, e = .tell message :=
      (load_does (fun message => ⟨message, rfl⟩) _).bind fun index =>
        (Action.does_ofExcept _).bind fun _ => Action.does_pure index
    obtain ⟨es, hes, hreplay⟩ := hrest host v
    obtain ⟨hdisk, hcalls⟩ := Event.replay_tells hes hreplay
    rw [Action.after] at hdisk hcalls
    rw [Starts, hdisk, hcalls]
    exact hreconfigure

/-- **Whenever a request starts CMake** the query is in place. -/
theorem request_asks (buildRoot : Text) (host : Host) (w : World) :
    ((request buildRoot).after host w).calls = w.calls ∨ ∃ u,
      Query.create (apiDirectory buildRoot) host w =
        .ok (Query.file (apiDirectory buildRoot)) u ∧
      Query.IsPut u.disk (apiDirectory buildRoot) ∧ ∃ call,
        ((request buildRoot).after host w).calls = w.calls ++ [call] ∧
        ((request buildRoot).after host w).disk = host.left w.calls call u.disk := by
  rcases request_cases buildRoot host w with ⟨fault, hrefused⟩ | hasked
  · rw [Action.after_of_eq_error hrefused]
    exact .inl rfl
  obtain ⟨e, hafter⟩ := Query.after_create (apiDirectory buildRoot) host w
  rw [Action.after] at hafter
  rw [Action.after, hasked, Action.bind_apply]
  cases hrun : Query.create (apiDirectory buildRoot) host w with
  | error fault u =>
    rw [hrun] at hafter
    obtain rfl : u = { w with disk := e } := hafter
    exact .inl rfl
  | ok path u =>
    rw [hrun] at hafter
    obtain rfl : u = { w with disk := e } := hafter
    obtain ⟨hpath, hput⟩ := Query.isPut_of_create hrun
    have hstarts := answer_starts buildRoot host { w with disk := e }
    rw [Action.after] at hstarts
    rcases hstarts with ⟨-, hcalls⟩ | ⟨call, hcalls, hdisk⟩
    · exact .inl hcalls
    · exact .inr ⟨_, by rw [hpath], hput, call, hcalls, hdisk⟩

end Index

namespace Query

/-- **The query heals itself.**  A file that baffles its reader stops the request and stays as it
is; a query in place stays as well.  Otherwise the query is renewed where there is room for it, with
nothing touched but its file and the directories above it, and it cannot be written anywhere else.
Once it is in place, nothing is done any more; and whenever CMake is started, it is in place. -/
theorem create_heals (api : Text) (host : Host) (w : World) :
    ((∀ fault, w.disk.Baffles (file api) fault → create api host w = .error fault w) ∧
      (IsPut w.disk api → create api host w = .ok (file api) w) ∧
      ((∀ fault, ¬w.disk.Baffles (file api) fault) → ¬IsPut w.disk api →
        (HasRoom w.disk api → ∃ e, create api host w = .ok (file api) { w with disk := e } ∧
          Renews w.disk api e ∧ e.Says (file api) document) ∧
        (¬HasRoom w.disk api → ∃ fault e, create api host w =
          .error (.failure (.metadata (.queryUnwritable fault))) { w with disk := e }))) ∧
    (∀ path u, create api host w = .ok path u →
      IsPut u.disk api ∧ create api host u = .ok path u) ∧
    ∀ buildRoot, ((Index.request buildRoot).after host w).calls = w.calls ∨ ∃ u,
      create (Index.apiDirectory buildRoot) host w =
        .ok (file (Index.apiDirectory buildRoot)) u ∧
      IsPut u.disk (Index.apiDirectory buildRoot) ∧ ∃ call,
        ((Index.request buildRoot).after host w).calls = w.calls ++ [call] ∧
        ((Index.request buildRoot).after host w).disk = host.left w.calls call u.disk := by
  refine ⟨⟨fun fault => create_of_baffles, create_of_isPut, fun hbaffles hput => ⟨fun hroom => ?_,
    create_of_stale_of_not_hasRoom host hbaffles hput⟩⟩, fun path u h => ?_,
    fun buildRoot => Index.request_asks buildRoot host w⟩
  · obtain ⟨e, hrun, hrenews⟩ := create_of_stale_of_hasRoom host hbaffles hput hroom
    exact ⟨e, hrun, hrenews, says_document hrenews.written⟩
  · obtain ⟨rfl, hput⟩ := isPut_of_create h
    exact ⟨hput, create_of_isPut hput⟩

/-! ### A query that is renewed, and two that are not -/

/-- The locations on the way to the query of an API directory `a`, and its own. -/
def queryWay : List Location :=
  [[], ["a"], ["a", "query"], ["a", "query", "client-msvc-ca-action"]]

def queryPlace : Location := ["a", "query", "client-msvc-ca-action", "query.json"]

/-- A disk on which the query's file has some content. -/
def queryDisk (content : Bytes) : Disk := ⟨[], [(["a"], .directory), (["a", "query"], .directory),
  (["a", "query", "client-msvc-ca-action"], .directory), (queryPlace, .file content)]⟩

theorem hasRoom_queryDisk (content : Bytes) : HasRoom (queryDisk content) "a" := by
  have hplace : Disk.place (queryDisk content).here (file "a") = queryPlace := by
    change Disk.place [] (file "a") = queryPlace
    decide
  have hway : ∀ l, IsAbove (queryDisk content) "a" l → l ∈ queryWay := by
    have hform : form "a" = ⟨0, ["a", "query", "client-msvc-ca-action"]⟩ := by decide
    have hstart : Disk.start (queryDisk content).here 0 = [] := rfl
    intro l hl
    rw [IsAbove, hform, hstart, Disk.onWay_cons, Disk.onWay_cons, Disk.onWay_cons,
      Disk.onWay_nil] at hl
    rcases hl with rfl | rfl | rfl | rfl <;> decide
  have hdirectory : ∀ l ∈ queryWay, (queryDisk content).find? l = some .directory := by
    intro l hl
    simp only [queryWay, List.mem_cons, List.not_mem_nil, or_false] at hl
    rcases hl with rfl | rfl | rfl | rfl <;> rfl
  refine ⟨rfl, fun l other hl hfile => ?_, ?_, fun hl => ?_⟩
  · cases (hdirectory l (hway l hl)).symm.trans hfile
  · rw [hplace]
    exact fun h => nomatch h
  · rw [hplace] at hl
    exact absurd (hway _ hl) (by decide)

theorem readBytes_queryDisk (content : Bytes) :
    (queryDisk content).readBytes (file "a") = .ok content :=
  Disk.readBytes_of_look? rfl

/-- An empty file is replaced. -/
theorem create_heals_queryDisk : ∃ e, create "a" idleHost ⟨queryDisk [], [], [], []⟩ =
    .ok (file "a") ⟨e, [], [], []⟩ ∧ e.Says (file "a") document := by
  have hstale : isInPlace (queryDisk []) (file "a") = .ok false := by
    have htext : (queryDisk []).readText (file "a") = .ok [] := by
      rw [Disk.readText, readBytes_queryDisk]
      rfl
    simp only [isInPlace, htext]
    rfl
  have hbaffles : ∀ fault, ¬(queryDisk []).Baffles (file "a") fault := by
    intro fault hfault
    cases hstale.symm.trans (isInPlace_eq_error_iff.2 hfault)
  have hput : ¬IsPut (queryDisk []) "a" := by
    intro hput
    cases hstale.symm.trans (isInPlace_eq_true_iff.2 (isPut_iff.1 hput))
  obtain ⟨⟨-, -, hrenews⟩, -⟩ := create_heals "a" idleHost ⟨queryDisk [], [], [], []⟩
  obtain ⟨hroom, -⟩ := hrenews hbaffles hput
  obtain ⟨e, hrun, -, hsaid⟩ := hroom (hasRoom_queryDisk [])
  exact ⟨e, hrun, hsaid⟩

/-- What looks like the query: the version of the toolchains is no number. -/
def lookAlike : Json := .object [("requests", .array [request "codemodel" 2,
  .object [("kind", .string "toolchains"), ("version", .bool true)]])]

theorem readText_lookAlike : (queryDisk (Utf8.encode lookAlike.write)).readText (file "a") =
    .ok lookAlike.write ∧ Json.read lookAlike.write = .ok lookAlike := by
  have hspellable : lookAlike.IsSpellable := by
    simp +decide [lookAlike, request, Json.IsSpellable.bool]
  have hbool : (Json.bool true).HasNoFloat := fun _ h => nomatch h
  have hfloat : lookAlike.HasNoFloat := by simp [lookAlike, request, hbool]
  exact ⟨Disk.readText_of_isPlain (Json.isPlain_write _ hfloat) (readBytes_queryDisk _),
    Json.read_write hspellable hfloat⟩

/-- **Two files are left as they are**: one with a byte that begins no sequence, which stops the
request although there is room for the query, and one that looks like the query without saying
it. -/
theorem create_leaves_unhealed :
    (HasRoom (queryDisk [0xFF]) "a" ∧ create "a" idleHost ⟨queryDisk [0xFF], [], [], []⟩ =
      .error .notText ⟨queryDisk [0xFF], [], [], []⟩) ∧
    create "a" idleHost ⟨queryDisk (Utf8.encode lookAlike.write), [], [], []⟩ =
        .ok (file "a") ⟨queryDisk (Utf8.encode lookAlike.write), [], [], []⟩ ∧
      ¬(queryDisk (Utf8.encode lookAlike.write)).Says (file "a") document := by
  obtain ⟨htext, hread⟩ := readText_lookAlike
  refine ⟨⟨hasRoom_queryDisk _, create_of_baffles (.notText (Disk.readText_eq_notText.1 ?_))⟩,
    create_of_isPut ⟨lookAlike, .int 2, .bool true, ⟨_, htext, hread⟩,
      .intro .kindFirst .kindFirst, rfl, rfl⟩, ?_⟩
  · rw [Disk.readText, readBytes_queryDisk]
    rfl
  · rintro ⟨t, ht, hdocument⟩
    obtain rfl := Except.ok.inj (htext.symm.trans ht)
    have hsame := Except.ok.inj (hread.symm.trans hdocument)
    simp [lookAlike, document, request] at hsame

end Query

end BuildLint
