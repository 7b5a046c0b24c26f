import MeshLimiter.Proofs.Pass.Commands
import MeshLimiter.Proofs.Pass.History
/-!
# What is noted as applied

A pass that succeeds notes the limiter that it was for, with its generation and its specification,
or it has found nothing to do. A deletion takes the note away, whether it succeeds or not.

* **`Pass.Taken.Ran.noted`**: what a pass that succeeds leaves noted;
* **`Pass.applied_of_runs_delete`**: what a deletion leaves noted.
-/

namespace MeshLimiter.Pass

open Program (Runs)

variable {R : Answering} {s : Settings} {id : ResourceId} {w w' : World} {tr : Trace}
  {y : Except PassError Unit}

namespace Taken

variable {p : Taken}

/-- A pass that succeeds has collected metrics and notes its limiter, or it leaves what is noted as
it is. A changed limiter is left alone only if it is as applied. -/
theorem Ran.noted (hR : R.Sound) (hkey : keyOf p.limiter = .ok id) (ran : p.Ran R s)
    (ok : p.result = .ok ()) :
    (∃ c, p.Collects s id c ∧
      p.after.held.applied = p.before.held.applied.insert id (appliedOf p.limiter c)) ∨
    (∀ c, ¬ p.Collects s id c) ∧ p.after.held.applied = p.before.held.applied ∧
      (p.occasion = .changed →
        ∃ revision, isApplied p.before.held.applied[id]? p.limiter revision = true) := by
  -- a pass that succeeds has collected metrics, or it never came to collect any
  have hsynced : Within R s id p.limiter
      { p.before.held with interest := p.before.held.interest.insert id }
      p.trace p.result p.after → ∃ c, p.Collects s id c ∧
        p.after.held.applied = p.before.held.applied.insert id (appliedOf p.limiter c) := by
    intro hwithin
    cases course_of_within hR hwithin with
    | idle _ calls _ => exact absurd calls (calls_ne_nil_of_within hR hwithin)
    | blind _ result _ _ =>
      obtain ⟨e, herror⟩ := result
      rw [ok] at herror
      cases herror
    | seen service subsets pods replies collects effects =>
      rcases effects.applied with ⟨-, happlied⟩ | ⟨⟨e, herror⟩, -⟩
      · exact ⟨_, collects, happlied⟩
      · rw [ok] at herror
        cases herror
  have hnone : p.trace.observed = [] → ∀ c, ¬ p.Collects s id c :=
    fun hobserved c hc => hc.observed_ne_nil hobserved
  obtain ⟨occasion, l, w, tr, y, w'⟩ := p
  cases occasion with
  | changed =>
    rcases runs_reconcile hR hkey ran with
      ⟨-, ⟨e, herror⟩, -⟩ | ⟨happlied, -, hheld, -, hobserved⟩ | hwithin
    · rw [ok] at herror
      cases herror
    · exact .inr ⟨hnone hobserved, congrArg Held.applied hheld, fun _ => ⟨_, happlied⟩⟩
    · exact .inl (hsynced hwithin)
  | metrics =>
    -- a pass over metrics skips only what nobody is interested in
    rcases runs_refresh hR hkey ran with ⟨-, -, hheld, -, hobserved⟩ | ⟨hinterest, hwithin⟩
    · exact .inr ⟨hnone hobserved, congrArg Held.applied hheld, nofun⟩
    · rw [← insert_interest_of_contains hinterest] at hwithin
      exact .inl (hsynced hwithin)

end Taken

/-- A deletion that comes to its end has taken the note away. -/
theorem applied_of_runs_forget (hR : R.Sound) (h : Runs R (forget s id).run w tr y w') :
    w'.held.applied = w.held.applied.erase id := by
  obtain ⟨u, v, rest, hset, -, h₁⟩ := Attempt.runs_step_bind.1 h
  obtain ⟨u', v₁, rest₁, hwritten, -, h₂⟩ := Attempt.runs_step_bind.1 h₁
  have hcleared : v₁.held.applied = w.held.applied.erase id := by
    rw [(hR hwritten).setWritten, (hR hset).setApplied]
    rfl
  rw [← hcleared]
  -- the merge into the registry touches nothing else, and neither does the count
  obtain ⟨tr₁, v₂, tr₂, hmerge, -, hcount⟩ := Attempt.Runs.of_noting h₂
  have hmerged : v₂.held.applied = v₁.held.applied := by
    rcases Attempt.runs_bind.1 hmerge with ⟨tr₃, b, v₃, tr₄, hmerge, hpure, -⟩ | ⟨e, hmerge, -⟩
    · obtain ⟨-, -, rfl⟩ := Attempt.runs_pure.1 hpure
      rw [held_of_mergedTo (Registry.mergedTo_of_runs hR hmerge)]
    · rw [held_of_mergedTo (Registry.mergedTo_of_runs hR hmerge)]
  rw [← hmerged]
  rcases hcount with ⟨-, rfl⟩ | ⟨e, hcount, -⟩
  · rfl
  · rw [(hR hcount).held_of_isQuiet rfl]

/-- After a deletion nothing is noted as applied any more. -/
theorem applied_of_runs_delete (hR : R.Sound) (h : Runs R (delete s id).run w tr y w') :
    w'.held.applied = w.held.applied.erase id := by
  unfold delete at h
  obtain ⟨u, v₁, rest₁, hdrop, -, h₁⟩ := Attempt.runs_step_bind.1 h
  obtain ⟨entry, v₂, rest₂, hfind, -, h₂⟩ := Attempt.runs_step_bind.1 h₁
  have hbefore : v₂.held.applied = w.held.applied := by
    rw [(hR hfind).held_of_isQuiet rfl, (hR hdrop).dropInterest]
  rw [← hbefore]
  cases entry with
  | none => exact applied_of_runs_forget hR h₂
  | some e =>
    -- the entry is removed under its lock, which never fails
    have hcut : ∀ {tr} {x : Except PassError Unit} {v}, Runs R (Attempt.holding (.entry e)
        (do let _ : Unit ← (Program.step (.removeEntry id) :))).run v₂ tr x v →
        x = .ok () ∧ v.held.applied = v₂.held.applied := by
      intro tr x v hrun
      obtain ⟨v₃, v₄, hlocked, hbody, hunlocked⟩ := Attempt.Runs.of_holding hrun
      obtain ⟨u', v₅, rest₅, hremove, -, hpure⟩ := Attempt.runs_step_bind.1 hbody
      obtain ⟨-, hok, rfl⟩ := Attempt.runs_pure.1 hpure
      exact ⟨hok, by rw [hunlocked, (hR hremove).removeEntry, hlocked]⟩
    rcases Attempt.runs_bind.1 h₂ with ⟨tr₁, u', v₃, tr₂, hrun, h₃, -⟩ | ⟨e', hrun, -⟩
    · rw [applied_of_runs_forget hR h₃, (hcut hrun).2]
    · cases (hcut hrun).1

end MeshLimiter.Pass
