import BuildLint.Proofs.Action.Events

/-!
# Proofs/Action/Questions — actions that only ask

Some actions look at what stands on the disk, tell the user about it, and do nothing else.  Such an
action gives the same in all worlds where the same stands, so it makes no difference to others when
it is run, or whether it is run once or twice.

* `Action.result` — what an action gives, or the fault that stops it.
* `Action.OnlyAsks` — that an action only asks; `OnlyAsks.bind` and its companions show it part by
  part.
-/

namespace BuildLint

namespace Action

variable {α β : Type} {x : Action α} {f : α → Action β} {host : Host} {w v : World}

/-- **What an action gives**, or the fault that stops it. -/
def result (x : Action α) (host : Host) (w : World) : Except Fault α :=
  match x host w with
  | .ok a _ => .ok a
  | .error fault _ => .error fault

/-- What an action gives and the world in which it ends are all that there is to a run. -/
theorem run_eq_ok_iff {a : α} :
    x host w = .ok a v ↔ x.result host w = .ok a ∧ x.after host w = v := by
  rw [result, after]
  cases x host w <;> simp

theorem run_eq_error_iff {fault : Fault} :
    x host w = .error fault v ↔ x.result host w = .error fault ∧ x.after host w = v := by
  rw [result, after]
  cases x host w <;> simp

theorem exists_run_of_result {a : α} (h : x.result host w = .ok a) :
    ∃ v, x host w = .ok a v :=
  ⟨_, run_eq_ok_iff.2 ⟨h, rfl⟩⟩

theorem exists_run_of_result_error {fault : Fault} (h : x.result host w = .error fault) :
    ∃ v, x host w = .error fault v :=
  ⟨_, run_eq_error_iff.2 ⟨h, rfl⟩⟩

theorem exists_run_of_isOk (h : (x.result host w).isOk = true) : ∃ a v, x host w = .ok a v := by
  cases hresult : x.result host w with
  | ok a => exact ⟨a, exists_run_of_result hresult⟩
  | error fault =>
    rw [hresult] at h
    cases h

theorem result_ofExcept (r : Except Fault α) (host : Host) (w : World) :
    (ofExcept r).result host w = r := by
  cases r <;> rfl

theorem result_disk_bind (f : Disk → Action β) (host : Host) (w : World) :
    (disk >>= f).result host w = (f w.disk).result host w := rfl

theorem result_consult_bind (question : Disk → Except Fault α) (f : α → Action β) (host : Host)
    (w : World) : (consult question >>= f).result host w =
      question w.disk >>= fun a => (f a).result host w := by
  rw [result, bind_apply, consult_apply]
  cases question w.disk <;> rfl

/-- **An action only asks** if it changes nothing but what the user is told, and what stands on the
disk decides what it gives. -/
structure OnlyAsks (x : Action α) : Prop where
  after : ∀ host w, ∃ said, x.after host w = { w with messages := w.messages ++ said }
  result : ∀ host w v, w.disk.look? = v.disk.look? → x.result host w = x.result host v

theorem onlyAsks_pure (a : α) : (pure a : Action α).OnlyAsks where
  after := fun _ w => ⟨[], by rw [List.append_nil]; rfl⟩
  result := fun _ _ _ _ => rfl

theorem onlyAsks_throw (fault : Fault) : (throw fault : Action α).OnlyAsks where
  after := fun _ w => ⟨[], by rw [List.append_nil]; rfl⟩
  result := fun _ _ _ _ => rfl

theorem onlyAsks_fail (failure : Failure) : (fail failure : Action α).OnlyAsks :=
  onlyAsks_throw _

theorem onlyAsks_ofExcept (r : Except Fault α) : (ofExcept r).OnlyAsks := by
  cases r with
  | ok a => exact onlyAsks_pure a
  | error fault => exact onlyAsks_throw fault

theorem onlyAsks_tell (level : Level) (text : Text) : (tell level text).OnlyAsks where
  after := fun _ _ => ⟨_, rfl⟩
  result := fun _ _ _ _ => rfl

/-- **One question and then another.** -/
theorem OnlyAsks.bind (hx : x.OnlyAsks) (hf : ∀ a, (f a).OnlyAsks) : (x >>= f).OnlyAsks where
  after := by
    intro host w
    obtain ⟨said, hsaid⟩ := hx.after host w
    rw [Action.after, bind_apply]
    cases hrun : x host w with
    | error fault v => exact ⟨said, (after_of_eq_error hrun).symm.trans hsaid⟩
    | ok a v =>
      obtain ⟨more, hmore⟩ := (hf a).after host v
      rw [after_of_eq_ok hrun] at hsaid
      exact ⟨said ++ more, hmore.trans (by rw [hsaid, List.append_assoc])⟩
  result := by
    intro host w v hlook
    have hsame := hx.result host w v hlook
    rw [Action.result, Action.result, bind_apply, bind_apply]
    cases hw : x host w with
    | error fault w' =>
      obtain ⟨v', hv⟩ := exists_run_of_result_error (hsame.symm.trans (run_eq_error_iff.1 hw).1)
      rw [hv]
    | ok a w' =>
      obtain ⟨v', hv⟩ := exists_run_of_result (hsame.symm.trans (run_eq_ok_iff.1 hw).1)
      obtain ⟨said, hsaid⟩ := hx.after host w
      obtain ⟨said', hsaid'⟩ := hx.after host v
      rw [after_of_eq_ok hw] at hsaid
      rw [after_of_eq_ok hv] at hsaid'
      rw [hv]
      exact (hf a).result host w' v' (by rw [hsaid, hsaid']; exact hlook)

/-- **A question asked after another** gives what it gives on the same disk. -/
theorem OnlyAsks.result_bind (hx : x.OnlyAsks) (hf : ∀ a, (f a).OnlyAsks) (host : Host)
    (w : World) :
    (x >>= f).result host w = x.result host w >>= fun a => (f a).result host w := by
  rw [Action.result, bind_apply, Action.result]
  cases hrun : x host w with
  | error fault v => rfl
  | ok a v =>
    obtain ⟨said, hsaid⟩ := hx.after host w
    rw [after_of_eq_ok hrun] at hsaid
    exact (hf a).result host v w (by rw [hsaid])

/-- **Looking at the disk** is a question if what follows depends on what stands there. -/
theorem OnlyAsks.disk_bind {f : Disk → Action β} (hf : ∀ d, (f d).OnlyAsks)
    (hlook : ∀ d e, d.look? = e.look? → f d = f e) : (disk >>= f).OnlyAsks where
  after := fun host w => (hf w.disk).after host w
  result := by
    intro host w v h
    rw [result_disk_bind, result_disk_bind, hlook _ _ h]
    exact (hf v.disk).result host w v h

theorem onlyAsks_consult {question : Disk → Except Fault α}
    (h : ∀ d e, d.look? = e.look? → question d = question e) : (consult question).OnlyAsks :=
  .disk_bind (fun _ => onlyAsks_ofExcept _) fun d e hde => congrArg ofExcept (h d e hde)

end Action

end BuildLint
