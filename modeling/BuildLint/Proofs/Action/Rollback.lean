import BuildLint.Proofs.Action.TemporaryLog

/-!
# Proofs/Action/Rollback — fresh logs, and the disk as it was before them

Logs come where nothing stands, and only as empty files.  So a disk that has gained some logs and
loses them again has at every path what stood there before.

* `Action.Gains` — a disk with fresh logs, one more at a time (`Gains.concat`); `Gains.discarded`
  takes them back.
* `Action.orElseUndo_restores` — a fault after some allocations.
-/

namespace BuildLint

namespace Action

variable {host : Host} {w v : World} {log : Text} {paths : List Text} {d e f : Disk}

/-! ## Fresh logs -/

/-- **A disk has gained some logs**: each is an empty file where nothing stood, and apart from their
places the disk is what it was. -/
structure Gains (paths : List Text) (d e : Disk) : Prop where
  fresh : ∀ p ∈ paths, d.isThere p = false
  empty : ∀ p ∈ paths, e.look? p = some (.file [])
  nodup : paths.Nodup
  here : e.here = d.here
  locate : ∀ q l, e.locate q = .ok l ↔ d.locate q = .ok l
  stays : ∀ q, d.isThere q = true → e.isThere q = true
  apart : ∀ q, (∀ p ∈ paths, Disk.place d.here q ≠ Disk.place d.here p) → e.look? q = d.look? q

theorem Gains.nil (d : Disk) : Gains [] d d where
  fresh := fun _ h => absurd h List.not_mem_nil
  empty := fun _ h => absurd h List.not_mem_nil
  nodup := List.nodup_nil
  here := rfl
  locate := fun _ _ => Iff.rfl
  stays := fun _ h => h
  apart := fun _ _ => rfl

theorem Gains.isThere {p : Text} (h : Gains paths d e) (hp : p ∈ paths) : e.isThere p = true := by
  rw [Disk.isThere, h.empty p hp]
  rfl

theorem Gains.isDirectory {p : Text} (h : Gains paths d e) (hp : p ∈ paths) :
    e.isDirectory p = false := by
  rw [Disk.isDirectory, h.empty p hp]
  rfl

/-- **One more log.** -/
theorem Gains.concat (h : Gains paths d w.disk)
    (hlog : Event.perform host w (.allocate log) = some v) :
    Gains (paths ++ [log]) d v.disk := by
  obtain ⟨hfresh, e, hwrite, rfl⟩ := Event.perform_allocate.1 hlog
  have hne : ∀ p ∈ paths, Disk.place w.disk.here p ≠ Disk.place w.disk.here log := fun p hp =>
    Disk.place_ne_of_write hwrite hfresh (h.isThere hp)
  refine
    { fresh := fun p hp => ?fresh
      empty := fun p hp => ?empty
      nodup := ?nodup
      here := (Disk.here_write hwrite).trans h.here
      locate := fun q l => (Disk.locate_write hwrite q l).trans (h.locate q l)
      stays := fun q hq => Disk.isThere_write hwrite (h.stays q hq)
      apart := fun q hq => ?apart }
  case fresh =>
    rcases List.mem_append.1 hp with hp | hp
    · exact h.fresh p hp
    · obtain rfl := List.mem_singleton.1 hp
      exact Bool.eq_false_iff.2 fun hthere => Bool.eq_false_iff.1 hfresh (h.stays p hthere)
  case empty =>
    rcases List.mem_append.1 hp with hp | hp
    · exact (Disk.look?_write_of_place_ne hwrite (hne p hp)).trans (h.empty p hp)
    · obtain rfl := List.mem_singleton.1 hp
      exact Disk.look?_write_self hwrite rfl
  case nodup =>
    refine List.nodup_append.2 ⟨h.nodup, List.nodup_singleton _, fun p hp q hq hpq => ?_⟩
    obtain rfl := List.mem_singleton.1 hq
    exact hne p hp (congrArg _ hpq)
  case apart =>
    rw [Disk.look?_write_of_place_ne hwrite, h.apart q fun p hp => hq p (List.mem_append_left _ hp)]
    rw [h.here]
    exact hq log (List.mem_append_right _ (List.mem_singleton_self _))

/-- **Fresh logs that are taken away leave no trace.** -/
theorem Gains.discarded (h : Gains paths d e) (h' : Clears paths e f) : f.look? = d.look? := by
  ext1 q
  by_cases hlogs : ∃ p ∈ paths, Disk.place d.here q = Disk.place d.here p
  · -- the path spells the location of a log: it leads there, where nothing stands now, or nowhere
    obtain ⟨p, hp, hplace⟩ := hlogs
    have hlog : e.locate p = .ok (Disk.place d.here p) := by
      rw [Disk.locate_of_isThere (h.isThere hp), h.here]
    by_cases hq : ∃ l, d.locate q = .ok l
    · obtain ⟨l, hl⟩ := hq
      obtain rfl : l = Disk.place d.here p := (Disk.locate_eq_ok hl).trans hplace
      have hnone := h'.gone p hp q (((h.locate q _).2 hl).trans hlog.symm)
      have hvacant := Disk.isThere_eq_false_iff.1 (h.fresh p hp)
      rw [Disk.look?_of_locate ((h.locate p _).1 hlog), ← Disk.look?_of_locate hl] at hvacant
      rw [Disk.isThere_eq_false_iff.1 hnone, hvacant]
    · rw [Disk.look?_eq_none_of_locate fun l hl => hq ⟨l, hl⟩, Disk.look?_eq_none_of_locate
        fun l hl => hq ⟨l, (h.locate q l).1 ((h'.locate q l).1 hl)⟩]
  · have hapart : ∀ p ∈ paths, Disk.place d.here q ≠ Disk.place d.here p := fun p hp hplace =>
      hlogs ⟨p, hp, hplace⟩
    rw [h'.apart q (h.here ▸ hapart), h.apart q hapart]

/-- **A fault after some allocations** leaves the disk as it was before them. -/
theorem orElseUndo_restores {α : Type} {x : Action α} {fault : Fault}
    (hx : x host w = .error fault w) (h : Gains paths d w.disk) :
    ∃ e, e.look? = d.look? ∧
      x.orElseUndo (discardLogs paths) host w = .error fault { w with disk := e } := by
  obtain ⟨e, hclears, hrun⟩ := discardLogs_eq_ok host fun p hp => h.isDirectory hp
  refine ⟨e, h.discarded hclears, ?_⟩
  simp only [orElseUndo, hx, hrun]

end Action

end BuildLint
