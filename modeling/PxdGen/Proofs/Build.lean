import PxdGen.Pxd.Build
/-! # When a node can be built

A node is built from values once all checks of its kind are met. The lemmas on single checks have
the value that is checked as a field that is looked up, so that for a given kind and given values
they apply as they stand.
-/

namespace PxdGen.Pxd

theorem forM_run_eq {fields : List (String × Value)} {checks : List Check}
    (h : ∀ c ∈ checks, c.run fields = .ok ()) : checks.forM (·.run fields) = .ok () := by
  induction checks with
  | nil => rfl
  | cons c rest ih =>
    show (c.run fields >>= fun _ => rest.forM (·.run fields)) = .ok ()
    rw [h c (by simp)]
    exact ih fun d hd => h d (by simp [hd])

theorem build_eq (kind : Kind) {args : List Value} {fields : List (String × Value)}
    (hAny : kind ≠ .anyNode) (hMember : ∀ f, kind ≠ .member f) (hSingle : kind.isSingle = false)
    (hFields : kind.signature.bind? args = some fields)
    (hChecks : ∀ c ∈ kind.signature.checks, c.run fields = .ok ()) :
    build kind args = .ok (.node kind fields) := by
  have hRun := forM_run_eq hChecks
  unfold build
  split
  · exact absurd rfl hAny
  · exact absurd rfl (hMember _)
  · rw [if_neg (by simp [hSingle]), hFields]
    simp only [hRun]
    rfl

section

variable {fields : List (String × Value)} {name words : String} {want : Want}

theorem run_field_one (h : want.admits (fieldOf fields name) = true) :
    Check.run fields (.field name (.one want words)) = .ok () := by
  simp [Check.run, Demand.meet, h]

theorem run_field_bare (h : want.admits (fieldOf fields name) = true) :
    Check.run fields (.field name (.bare want)) = .ok () := by
  simp [Check.run, Demand.meet, h]

theorem run_field_every {items : List Value} (hItems : (fieldOf fields name).items? = some items)
    (h : ∀ v ∈ items, want.admits v = true) :
    Check.run fields (.field name (.every want words)) = .ok () := by
  simpa [Check.run, Demand.meet, hItems] using h

theorem run_given_of_false {demand : Demand} (h : (fieldOf fields name).isTrue = false) :
    Check.run fields (.given name demand) = .ok () := by
  simp [Check.run, h]

theorem run_given_one (h : want.admits (fieldOf fields name) = true) :
    Check.run fields (.given name (.one want words)) = .ok () := by
  simp [Check.run, Demand.meet, h]

end

end PxdGen.Pxd
