import BuildLint.Proofs.Action.Events
import BuildLint.Proofs.Text.Utf8

/-!
# Proofs/Action/Outcomes — what comes of the programs that an action starts

Replayed from a world, events say which programs were started and what came of each: a program's
behaviour depends on the calls before its own and on the disk it finds, and both are known at that
place.  Some of what may come of a program **stops** an action with a certain fault, and an action
**heeds** its programs if it stops with that fault as soon as this happens.

* `Event.outcomes`, `outcomes_append` — the programs and their outcomes, one list of events after
  another.
* `Action.Heeds` — that an action heeds its programs, and what holds of the outcomes so far and of
  what it gives; `Heeds.bind` and its companions show it part by part.
-/

namespace BuildLint

/-- **A program that prints text** has an outcome. -/
theorem Host.outcomeOf_encode {host : Host} (h : host.decode = Utf8.decode) (exitCode : Int)
    {output : Text} (houtput : output.IsUnicode) :
    host.outcomeOf (.ended exitCode (Utf8.encode output) []) = .ok ⟨exitCode, output, []⟩ := by
  rw [outcomeOf, h, Utf8.decode_encode houtput]
  rfl

namespace Event

variable {host : Host} {w v : World} {es : List Event}

/-- The program that an event starts in a world, and what comes of it. -/
def outcome? (host : Host) (w : World) : Event → Option (Call × Except Fault Outcome)
  | .launch call => some (call, host.outcome w.calls call w.disk)
  | _ => none

/-- **The programs that events start**, each with what comes of it. -/
def outcomes (host : Host) : World → List Event → List (Call × Except Fault Outcome)
  | _, [] => []
  | w, e :: es => (outcome? host w e).toList ++
      match perform host w e with
      | none => []
      | some v => outcomes host v es

/-- **Events after others** start their programs where the others have led. -/
theorem outcomes_append (h : replay host w es = some v) (fs : List Event) :
    outcomes host w (es ++ fs) = outcomes host w es ++ outcomes host v fs := by
  induction es generalizing w with
  | nil =>
    obtain rfl := Option.some.inj h
    rfl
  | cons e es ih =>
    rw [replay_cons] at h
    obtain ⟨u, hu, hrest⟩ := Option.bind_eq_some_iff.1 h
    simp only [List.cons_append, outcomes, hu, ih hrest, List.append_assoc]

/-- Whatever program comes to an outcome was started by some event, and the outcome is what the host
makes of the call. -/
theorem of_mem_outcomes {p : Call × Except Fault Outcome} (h : p ∈ outcomes host w es) :
    .launch p.1 ∈ es ∧ ∃ before d, p.2 = host.outcome before p.1 d := by
  induction es generalizing w with
  | nil => exact absurd h List.not_mem_nil
  | cons e es ih =>
    rw [outcomes] at h
    rcases List.mem_append.1 h with h | h
    · cases e with
      | launch call =>
        obtain rfl := List.mem_singleton.1 h
        exact ⟨List.mem_cons_self, _, _, rfl⟩
      | _ => exact absurd h List.not_mem_nil
    · cases hperform : perform host w e with
      | none =>
        rw [hperform] at h
        exact absurd h List.not_mem_nil
      | some u =>
        rw [hperform] at h
        exact (ih h).imp_left (List.mem_cons_of_mem e)

end Event

namespace Action

/-- **An action heeds its programs**: all that it does are events of a kind, and if what comes of a
program stops it with a fault then that is the fault it ends with.  If none stops it, something
holds of what is known of its programs by then and of what the action gives. -/
structure HeedsBy {α : Type} (stops : Call × Except Fault Outcome → Fault → Prop)
    (Q : List (Call × Except Fault Outcome) → α → Prop)
    (known : List (Call × Except Fault Outcome)) (x : Action α) (host : Host) (w : World)
    (es : List Event) : Prop where
  replay : Event.replay host w es = some (x.after host w)
  ok : ∀ a v, x host w = .ok a v →
    (∀ p ∈ Event.outcomes host w es, ∀ fault, ¬stops p fault) ∧
      Q (known ++ Event.outcomes host w es) a
  error : ∀ other v, x host w = .error other v →
    ∀ p ∈ Event.outcomes host w es, ∀ fault, stops p fault → other = fault

/-- **An action heeds its programs** by events of a kind. -/
def Heeds {α : Type} (P : Event → Prop) (stops : Call × Except Fault Outcome → Fault → Prop)
    (Q : List (Call × Except Fault Outcome) → α → Prop)
    (known : List (Call × Except Fault Outcome)) (x : Action α) (host : Host) (w : World) : Prop :=
  ∃ es, (∀ e ∈ es, P e) ∧ HeedsBy stops Q known x host w es

variable {α β : Type} {P P' : Event → Prop} {stops : Call × Except Fault Outcome → Fault → Prop}
  {Q : List (Call × Except Fault Outcome) → α → Prop}
  {R : List (Call × Except Fault Outcome) → β → Prop}
  {known : List (Call × Except Fault Outcome)} {x : Action α} {f : α → Action β} {host : Host}
  {w : World}

theorem Heeds.mono (h : x.Heeds P stops Q known host w) (hP : ∀ e, P e → P' e) :
    x.Heeds P' stops Q known host w :=
  h.imp fun _ hes => ⟨fun e he => hP e (hes.1 e he), hes.2⟩

/-- **An action without programs that could stop it** heeds them. -/
theorem DoesAt.heeds (h : x.DoesAt P' host w) (hP : ∀ e, P' e → P e)
    (hnone : ∀ call outcome fault, P' (.launch call) → ¬stops (call, outcome) fault)
    (hQ : ∀ a v known', x host w = .ok a v → known ⊆ known' → Q known' a) :
    x.Heeds P stops Q known host w := by
  obtain ⟨es, hes, hreplay⟩ := h
  have hall : ∀ p ∈ Event.outcomes host w es, ∀ fault, ¬stops p fault := fun p hp fault =>
    hnone p.1 p.2 fault (hes _ (Event.of_mem_outcomes hp).1)
  refine ⟨es, fun e he => hP e (hes e he), hreplay, fun a v hrun => ⟨hall, ?_⟩, ?_⟩
  · exact hQ a v _ hrun (List.subset_append_left _ _)
  · exact fun other v _ p hp fault hstops => absurd hstops (hall p hp fault)

/-- An action that does nothing heeds its programs. -/
theorem heeds_of_silent (h : x.DoesAt (fun _ => False) host w) :
    x.Heeds P stops (fun known' _ => known ⊆ known') known host w :=
  h.heeds (fun _ => False.elim) (fun _ _ _ => False.elim) fun _ _ _ _ hsub => hsub

theorem heeds_pure {a : α} (h : Q known a) :
    (pure a : Action α).Heeds P stops Q known host w := by
  refine ⟨[], fun _ he => absurd he List.not_mem_nil, rfl, ?_, fun _ _ hrun => nomatch hrun⟩
  rintro _ _ ⟨⟩
  refine ⟨fun _ hp => absurd hp List.not_mem_nil, ?_⟩
  rw [Event.outcomes, List.append_nil]
  exact h

/-- **One action and then another** heed their programs if both do, whatever is known by then. -/
theorem Heeds.bind (hx : x.Heeds P stops Q known host w)
    (hf : ∀ a v known', x host w = .ok a v → Q known' a →
      (f a).Heeds P stops R known' host v) :
    (x >>= f).Heeds P stops R known host w := by
  obtain ⟨es, hes, hreplay, hok, herror⟩ := hx
  cases hrun : x host w with
  | error other v =>
    have hend : (x >>= f) host w = .error other v := bind_of_eq_error hrun
    rw [after_of_eq_error hrun] at hreplay
    refine ⟨es, hes, hreplay.trans (congrArg some (after_of_eq_error hend).symm), ?_, ?_⟩
    · intro b u hb
      cases hend.symm.trans hb
    · intro other' u hother
      cases hend.symm.trans hother
      exact herror other v hrun
  | ok a v =>
    have hend : (x >>= f) host w = f a host v := bind_of_eq_ok hrun
    obtain ⟨hgood, hQ⟩ := hok a v hrun
    obtain ⟨fs, hfs, hreplay', hok', herror'⟩ := hf a v _ hrun hQ
    rw [after_of_eq_ok hrun] at hreplay
    have hall := Event.outcomes_append hreplay fs
    refine ⟨es ++ fs, fun e he => (List.mem_append.1 he).elim (hes e) (hfs e), ?_, ?_, ?_⟩
    · rw [after, hend, ← after]
      exact Event.replay_append hreplay hreplay'
    · intro b u hb
      obtain ⟨hgood', hR⟩ := hok' b u (hend.symm.trans hb)
      rw [hall, ← List.append_assoc]
      exact ⟨fun p hp => (List.mem_append.1 hp).elim (hgood p) (hgood' p), hR⟩
    · rw [hall]
      intro other u hother p hp fault hstops
      refine herror' other u (hend.symm.trans hother) p ?_ fault hstops
      exact (List.mem_append.1 hp).resolve_left fun hp => hgood p hp fault hstops

end Action

end BuildLint
