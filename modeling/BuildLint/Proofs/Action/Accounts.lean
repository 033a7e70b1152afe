import BuildLint.Proofs.Action.TemporaryLog

/-!
# Proofs/Action/Accounts — who answers for the temporary logs

An action that allocates logs **accounts for them** if whatever it gives has exactly these logs, or
none of them is there after the fault that stops it.  So whoever takes its result over owns the logs
from then on, and nobody has to after a fault.

* `Action.AccountsFor` — that an action does so, event by event.
* `AccountsFor.bind`, `AccountsFor.map` — what may come before and after.
* `AccountsFor.cons_allocate`, `AccountsFor.of_removes` — one log more, and a fault.
-/

namespace BuildLint

namespace Action

/-- **How an action accounts for logs** that it owns or allocates: what it gives has exactly these
logs, none of them a directory, and nothing has been removed; or a fault has stopped it, and none of
them is there. -/
def Accounts {α : Type} (logsOf : α → List Text) (owned : List Text) (es : List Event) :
    EStateM.Result Fault World α → Prop
  | .ok a v => logsOf a = owned ++ Event.allocated es ∧ (∀ p, Event.remove p ∉ es) ∧
      ∀ log ∈ owned ++ Event.allocated es, v.disk.isDirectory log = false
  | .error _ v => ∀ log ∈ owned ++ Event.allocated es, v.disk.isThere log = false

/-- **All that an action does are events of a kind**, and it accounts for the logs they allocate. -/
def AccountsFor {α : Type} (logsOf : α → List Text) (P : Event → Prop) (owned : List Text)
    (x : Action α) (host : Host) (w : World) : Prop :=
  ∃ es, Event.Leads host owned w es (x.after host w) ∧ (∀ e ∈ es, P e) ∧
    Accounts logsOf owned es (x host w)

/-- What comes before the first log need not be accounted for. -/
theorem AccountsFor.bind {α β : Type} {logsOf : β → List Text} {P : Event → Prop} {x : Action α}
    {f : α → Action β} {host : Host} {w : World}
    (hx : x.DoesAt (fun e => P e ∧ e.KeepsLogs) host w)
    (hf : ∀ a v, x host w = .ok a v → (f a).AccountsFor logsOf P [] host v) :
    (x >>= f).AccountsFor logsOf P [] host w := by
  obtain ⟨es, hleads, hes, hnone⟩ := hx.leads (fun _ he => he.2) []
  cases hrun : x host w with
  | error fault v =>
    rw [after_of_eq_error hrun] at hleads
    refine ⟨es, ?_, fun e he => (hes e he).1, ?_⟩
    · rw [after_of_eq_error (bind_of_eq_error hrun)]
      exact hleads
    · rw [bind_of_eq_error hrun, Accounts, hnone]
      exact fun _ h => absurd h List.not_mem_nil
  | ok a v =>
    obtain ⟨fs, hrest, hfs, haccounts⟩ := hf a v hrun
    rw [after_of_eq_ok hrun] at hleads
    refine ⟨es ++ fs, ?_, fun e he => ?_, ?_⟩
    · rw [after, bind_of_eq_ok hrun]
      refine hleads.append ?_
      rw [hnone]
      exact hrest
    · exact (List.mem_append.1 he).elim (fun h => (hes e h).1) (hfs e)
    · have hall : Event.allocated (es ++ fs) = Event.allocated fs := by
        rw [Event.allocated_append, hnone, List.nil_append]
      rw [bind_of_eq_ok hrun]
      cases hend : f a host v with
      | error fault u =>
        rw [hend] at haccounts
        rw [Accounts, hall]
        exact haccounts
      | ok b u =>
        rw [hend] at haccounts
        rw [Accounts, hall]
        refine ⟨haccounts.1, fun p hp => ?_, haccounts.2.2⟩
        rcases List.mem_append.1 hp with hp | hp
        · exact (hes _ hp).2
        · exact haccounts.2.1 p hp

theorem AccountsFor.doesAt {α : Type} {x : Action α} {logsOf : α → List Text} {P : Event → Prop}
    {owned : List Text} {host : Host} {w : World} (h : x.AccountsFor logsOf P owned host w) :
    x.DoesAt P host w :=
  h.imp fun _ hes => ⟨hes.2.1, hes.1.replay⟩

/-- What an action gives can be put into another form. -/
theorem AccountsFor.map {α β : Type} {logsOf : α → List Text} {logsOf' : β → List Text}
    {P : Event → Prop} {x : Action α} {f : α → β} {host : Host} {w : World}
    {owned : List Text} (hx : x.AccountsFor logsOf P owned host w)
    (hf : ∀ a, logsOf' (f a) = logsOf a) :
    Action.AccountsFor logsOf' P owned (do return f (← x)) host w := by
  obtain ⟨es, hleads, hes, haccounts⟩ := hx
  rw [after] at hleads
  refine ⟨es, ?_, hes, ?_⟩
  · rw [after, bind_apply]
    cases hrun : x host w <;> rw [hrun] at hleads <;> exact hleads
  · rw [bind_apply]
    cases hrun : x host w with
    | error fault v =>
      rw [hrun] at haccounts
      exact haccounts
    | ok a v =>
      rw [hrun] at haccounts
      exact ⟨(hf a).trans haccounts.1, haccounts.2⟩

/-- A fault after which all own logs are taken away leaves none of them. -/
theorem AccountsFor.of_removes {α : Type} {x : Action α} {logsOf : α → List Text}
    {owned : List Text} {host : Host} {w v : World} {fault : Fault} {es : List Event}
    (hes : ∀ e ∈ es, e.Removes owned) (hreplay : Event.replay host w es = some v)
    (hgone : ∀ p ∈ owned, v.disk.isThere p = false) (hrun : x host w = .error fault v) :
    x.AccountsFor logsOf Event.IsOfLog owned host w := by
  have hnone : Event.allocated es = [] := Event.allocated_eq_nil fun e he => (hes e he).allocated?
  refine ⟨es, ⟨?_, .of_removes hes (List.Subset.refl _)⟩, fun e he => (hes e he).isOfLog, ?_⟩
  · rw [after_of_eq_error hrun, hreplay]
  · rw [hrun, Accounts, hnone, List.append_nil]
    exact hgone

/-- **One log more**, and then an action that accounts for it. -/
theorem AccountsFor.cons_allocate {α : Type} {x y : Action α} {logsOf : α → List Text}
    {owned : List Text} {log : Text} {host : Host} {w v : World}
    (hy : y.AccountsFor logsOf Event.IsOfLog (owned ++ [log]) host v)
    (hpath : Event.IsOfLog (.allocate log)) (hlog : Event.perform host w (.allocate log) = some v)
    (hx : x host w = y host v) : x.AccountsFor logsOf Event.IsOfLog owned host w := by
  obtain ⟨es, hleads, hes, haccounts⟩ := hy
  have hall : owned ++ Event.allocated (.allocate log :: es) =
      owned ++ [log] ++ Event.allocated es := by
    rw [List.append_assoc]
    rfl
  refine ⟨.allocate log :: es, ⟨?_, hleads.own⟩, fun e he => ?_, ?_⟩
  · rw [Event.replay_cons, hlog, Option.bind_some, hleads.replay, after, after, hx]
  · rcases List.mem_cons.1 he with rfl | he
    · exact hpath
    · exact hes e he
  · rw [hx]
    cases hend : y host v with
    | error fault u =>
      rw [hend] at haccounts
      rw [Accounts, hall]
      exact haccounts
    | ok a u =>
      rw [hend] at haccounts
      rw [Accounts, hall]
      refine ⟨haccounts.1, fun p hp => ?_, haccounts.2.2⟩
      rcases List.mem_cons.1 hp with hp | hp
      · cases hp
      · exact haccounts.2.1 p hp

end Action

end BuildLint
