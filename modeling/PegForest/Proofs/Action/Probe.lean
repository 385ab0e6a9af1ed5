import PegForest.Proofs.Reading.Realize

/-!
# Searching by probes

A probe leaves a context in which the next probe sees the same.  In a context that tracks something
it still tracks that, and a bare context does not change at all.  So a search, which probes place
after place on the context that the probe before has left, finds what would be found from the
context of the beginning at each place: it stops at the first match, and without one it fails where
it has to end, wherever the probes failed.
-/

set_option autoImplicit false

namespace PegForest.Action

variable {τ : Type} {action : Action τ} {reading : Reading τ} {entry ctx after : Context τ}
  {limit cursor next offset place left : Nat} {among : Context τ → Prop}

/-- Contexts among which probes of the action stay, and on each of which they see at every place what
the action does on the first one. -/
def Probed (action : Action τ) (entry : Context τ) (limit : Nat) (among : Context τ → Prop) : Prop :=
  ∀ ctx place verdict after, among ctx → place ≤ limit →
    action entry place = .ok (verdict, after) →
    ∃ ctx', action.probe ctx place = .ok (verdict, ctx') ∧ among ctx'

theorem Realizes.probed (realizes : action.Realizes reading) {builds : Bool}
    {refs : List Backref} {trees : List (MarkedTree τ)} (tracks : entry.Tracks refs trees builds)
    (limit : Nat) : Probed action entry limit fun ctx => ctx.Tracks refs trees builds := by
  intro ctx place verdict after tracks' _ acted
  have agree := realizes builds entry refs trees place tracks
  rw [acted] at agree
  obtain ⟨outcome, read, tells⟩ := agree.of_ok
  have probes := realizes.probe place tracks'
  rw [read] at probes
  obtain ⟨⟨verdict', ctx'⟩, probed, tells'⟩ := probes.symm.of_ok
  cases tells with
  | matched _ =>
      cases tells' with
      | matched tracks'' => exact ⟨ctx', probed, tracks''⟩
  | failed _ =>
      cases tells' with
      | failed tracks'' => exact ⟨ctx', probed, tracks''⟩

theorem probed_bare {log : Array Event}
    (keeps : ∀ place ≤ limit, Yields (fun answer => answer.2 = ⟨none, none, log⟩)
      (action ⟨none, none, log⟩ place)) :
    Probed action ⟨none, none, log⟩ limit fun ctx => ctx = ⟨none, none, log⟩ := by
  rintro ctx place verdict after rfl within acted
  obtain rfl : after = ⟨none, none, log⟩ := keeps place within _ acted
  refine ⟨_, ?_, rfl⟩
  simp only [probe, acted, Fault.ok_bind]
  rfl

/-! ## Searches -/

theorem upTo_of_matched (probed : action.probe ctx cursor = .ok (.matched next, after)) (left : Nat) :
    action.upTo left ctx cursor = .ok (.matched cursor, after) := by
  cases left with
  | zero => simp only [upTo, probed, Fault.ok_bind, Fault.pure_eq_ok]
  | succ left => simp only [upTo, probed, Fault.ok_bind, Fault.pure_eq_ok]

theorem upTo_of_failed (probed : action.probe ctx cursor = .ok (.failed offset, after)) (left : Nat) :
    action.upTo (left + 1) ctx cursor = action.upTo left after (cursor + 1) := by
  conv_lhs => unfold upTo
  simp only [probed, Fault.ok_bind]

/-- A search stops at the first place at which the action matches on the first context. -/
theorem Probed.upTo_found (probed : Probed action entry limit among) (here : among ctx)
    (ends : cursor + left = limit) (lower : cursor ≤ place) (upper : place ≤ limit)
    (refused : ∀ earlier, cursor ≤ earlier → earlier < place →
      ∃ offset after, action entry earlier = .ok (.failed offset, after))
    (found : action entry place = .ok (.matched next, after)) :
    ∃ ctx', action.upTo left ctx cursor = .ok (.matched place, ctx') := by
  induction left generalizing ctx cursor with
  | zero =>
      obtain rfl : cursor = place := by omega
      obtain ⟨ctx', matched, -⟩ := probed ctx cursor _ after here upper found
      exact ⟨ctx', upTo_of_matched matched 0⟩
  | succ left ih =>
      rcases Nat.eq_or_lt_of_le lower with rfl | beyond
      · obtain ⟨ctx', matched, -⟩ := probed ctx cursor _ after here upper found
        exact ⟨ctx', upTo_of_matched matched (left + 1)⟩
      · obtain ⟨offset, after, acted⟩ := refused cursor (Nat.le_refl cursor) beyond
        obtain ⟨ctx', failed, here'⟩ := probed ctx cursor _ after here (by omega) acted
        rw [upTo_of_failed failed]
        exact ih here' (by omega) beyond fun earlier lower' upper' =>
          refused earlier (Nat.le_of_succ_le lower') upper'

theorem Probed.upTo_none (probed : Probed action entry limit among) (here : among ctx)
    (ends : cursor + left = limit)
    (refused : ∀ place, cursor ≤ place → place ≤ limit →
      ∃ offset after, action entry place = .ok (.failed offset, after)) :
    ∃ ctx', action.upTo left ctx cursor = .ok (.failed limit, ctx') := by
  induction left generalizing ctx cursor with
  | zero =>
      obtain rfl : cursor = limit := ends
      obtain ⟨offset, after, acted⟩ := refused cursor (Nat.le_refl cursor) (Nat.le_refl cursor)
      obtain ⟨ctx', failed, -⟩ := probed ctx cursor _ after here (Nat.le_refl cursor) acted
      refine ⟨ctx', ?_⟩
      simp only [upTo, failed, Fault.ok_bind, Fault.pure_eq_ok]
  | succ left ih =>
      have within : cursor ≤ limit := by omega
      obtain ⟨offset, after, acted⟩ := refused cursor (Nat.le_refl cursor) within
      obtain ⟨ctx', failed, here'⟩ := probed ctx cursor _ after here within acted
      rw [upTo_of_failed failed]
      exact ih here' (by omega) fun place lower upper => refused place (Nat.le_of_succ_le lower) upper

end PegForest.Action
