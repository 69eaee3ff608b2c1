import ReleaseUpgrade.Admission

/-!
# Plans that have been admitted

* `Admission.requested_of_create`   a plan that has been created asks for a version;
* `Admission.Accepted`              what holds of an edit: nothing is under way, and the version that
                                    is asked for comes after the release that has been reached.
-/

namespace ReleaseUpgrade.Admission

/-- what holds of an edit of a plan that stays -/
structure Accepted (old new : UpgradePlan) : Prop where
  unlocked : ∀ c ∈ new.statusOr.conditions, locks c.reason = false
  advanced : ∃ v, releaseVersion new.spec.releaseVersion = .ok v ∧
    ∀ reached, reached? old = some reached →
      ∃ w, releaseVersion reached = .ok w ∧ v.order w = .gt

section
variable {old new : UpgradePlan}

theorem requested_of_create (h : create new = .ok ()) :
    ∃ v, releaseVersion new.spec.releaseVersion = .ok v := by
  unfold create at h
  cases hv : releaseVersion new.spec.releaseVersion with
  | ok v => exact ⟨v, rfl⟩
  | error e =>
    rw [hv] at h
    cases h

theorem create_of_requested {v : SemVer} (h : releaseVersion new.spec.releaseVersion = .ok v) :
    create new = .ok () := by
  rw [create, h]
  rfl

theorem order_of_advances {v : SemVer} {reached : String} (h : advances new v reached = .ok ()) :
    ∃ w, releaseVersion reached = .ok w ∧ v.order w = .gt := by
  unfold advances at h
  cases hw : releaseVersion reached with
  | error e =>
    rw [hw] at h
    cases h
  | ok w =>
    rw [hw] at h
    refine ⟨w, rfl, ?_⟩
    cases horder : v.order w with
    | gt => rfl
    | lt | eq =>
      simp only [bind, Except.bind, horder] at h
      cases h

/-- a release that has a version counts as reached -/
theorem reached?_eq {reached : String} {w : SemVer}
    (h : old.statusOr.lastSuccessfulRelease = some reached) (hw : releaseVersion reached = .ok w) :
    reached? old = some reached := by
  have hne : reached ≠ "" := by
    rintro rfl
    cases hw
  rw [reached?, h, Option.filter_some, if_pos (bne_iff_ne.mpr hne)]

/-- an edit of a plan that stays has been checked in full -/
theorem accepted_of_update (h : update old new = .ok ())
    (hstays : new.metadata.isTerminating = false) : Accepted old new := by
  have hrelease : isRelease old new = false := by rw [isRelease, hstays, Bool.false_and]
  unfold update at h
  rw [hrelease] at h
  cases hlock : lock? new with
  | some c =>
    rw [hlock] at h
    cases h
  | none =>
    rw [hlock] at h
    cases hv : releaseVersion new.spec.releaseVersion with
    | error e =>
      rw [hv] at h
      cases h
    | ok v =>
      rw [hv] at h
      refine ⟨fun c hc => ?_, v, hv, fun reached hreached => ?_⟩
      · exact Bool.eq_false_iff.mpr (List.find?_eq_none.mp hlock c hc)
      · rw [hreached] at h
        exact order_of_advances h

end

end ReleaseUpgrade.Admission
