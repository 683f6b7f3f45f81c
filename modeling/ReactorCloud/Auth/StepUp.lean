import Mathlib.Data.List.Perm.Basic
import ReactorCloud.Auth.Types

/-!
This module contains the check of a platform permission and proves when its answer does not depend on the
order of the grants.
-/

namespace Reactor.Auth

/--
A permission of a platform role and whether it asks for a second factor.
-/
abbrev PlatformGrant := String × Bool

def matchesPermission (pattern required : String) : Bool :=
  if pattern = "*" then
    true
  else if [':', '*'].isSuffixOf pattern.toList then
    pattern.toList.dropLast.isPrefixOf required.toList
  else
    pattern == required

/--
The loop over the grants of a user. The query leaves their order open.
-/
def firstMatch (required : String) : List PlatformGrant → Bool × Bool
  | [] => (false, false)
  | (perm, requiresStepUp) :: permissions =>
    if matchesPermission perm required then (true, requiresStepUp) else firstMatch required permissions

/--
Whether the user has the permission and whether it asks for a second factor.
-/
def checkPlatformPermission (permissions : Except AuthError (List PlatformGrant)) (required : String)
    : Except AuthError (Bool × Bool) := do
  let permissions ← permissions
  return firstMatch required permissions

/-! Patterns -/

theorem matchesPermission_self (permission : String) : matchesPermission permission permission = true := by
  unfold matchesPermission
  split
  . rfl
  . split
    . rw [List.isPrefixOf_iff_prefix]
      exact List.dropLast_prefix _
    . exact beq_self_eq_true permission

/-! Grants -/

section

variable {required : String} {permissions permissions' : List PlatformGrant} {g : PlatformGrant}

theorem firstMatch_cons_of_matches (h : matchesPermission g.1 required = true)
    : firstMatch required (g :: permissions) = (true, g.2) := by
  rw [firstMatch, if_pos h]

theorem firstMatch_eq (required : String) (permissions : List PlatformGrant)
    : (∃ g ∈ permissions, matchesPermission g.1 required = true ∧ firstMatch required permissions = (true, g.2))
      ∨ (∀ g ∈ permissions, matchesPermission g.1 required = false) ∧ firstMatch required permissions = (false, false) := by
  induction permissions with
  | nil => exact .inr ⟨nofun, rfl⟩
  | cons g permissions ih =>
    cases hmatch : matchesPermission g.1 required with
    | true => exact .inl ⟨g, List.mem_cons_self, hmatch, firstMatch_cons_of_matches hmatch⟩
    | false =>
      have hnext : firstMatch required (g :: permissions) = firstMatch required permissions := by
        rw [firstMatch, if_neg (by rw [hmatch]; exact Bool.false_ne_true)]
      rw [hnext]
      rcases ih with ⟨g', hg', h⟩ | ⟨hnone, h⟩
      . exact .inl ⟨g', List.mem_cons_of_mem g hg', h⟩
      . exact .inr ⟨List.forall_mem_cons.mpr ⟨hmatch, hnone⟩, h⟩

theorem firstMatch_fst
    : (firstMatch required permissions).1 = true ↔ ∃ g ∈ permissions, matchesPermission g.1 required = true := by
  rcases firstMatch_eq required permissions with ⟨g, hg, hmatch, heq⟩ | ⟨hnone, heq⟩
  . rw [heq]
    exact iff_of_true rfl ⟨g, hg, hmatch⟩
  . rw [heq]
    apply iff_of_false Bool.false_ne_true
    intro ⟨g, hg, hmatch⟩
    rw [hnone g hg] at hmatch
    cases hmatch

/--
The grants that match say the same about the second factor.
-/
def Unanimous (required : String) (permissions : List PlatformGrant) : Prop :=
  ∀ g ∈ permissions, ∀ g' ∈ permissions,
    matchesPermission g.1 required = true → matchesPermission g'.1 required = true → g.2 = g'.2

theorem Unanimous.firstMatch (h : Unanimous required permissions) (hg : g ∈ permissions)
    (hmatch : matchesPermission g.1 required = true) : firstMatch required permissions = (true, g.2) := by
  rcases firstMatch_eq required permissions with ⟨g', hg', hmatch', heq⟩ | ⟨hnone, _⟩
  . rw [heq, h g hg g' hg' hmatch hmatch']
  . rw [hnone g hg] at hmatch
    cases hmatch

theorem Unanimous.perm (h : Unanimous required permissions) (hperm : permissions'.Perm permissions)
    : Unanimous required permissions' := by
  intro g hg g' hg'
  exact h g (hperm.mem_iff.mp hg) g' (hperm.mem_iff.mp hg')

theorem Unanimous.firstMatch_perm (h : Unanimous required permissions) (hperm : permissions'.Perm permissions)
    : Auth.firstMatch required permissions' = Auth.firstMatch required permissions := by
  rcases firstMatch_eq required permissions with ⟨g, hg, hmatch, heq⟩ | ⟨hnone, heq⟩
  . rw [heq]
    exact (h.perm hperm).firstMatch (hperm.mem_iff.mpr hg) hmatch
  . rw [heq]
    rcases firstMatch_eq required permissions' with ⟨g, hg, hmatch, _⟩ | ⟨_, heq'⟩
    . rw [hnone g (hperm.mem_iff.mp hg)] at hmatch
      cases hmatch
    . exact heq'

/--
The second factor is asked for whatever the order of the grants is and however broad other grants are.
-/
def StepUpHolds (required : String) (permissions : List PlatformGrant) : Prop :=
  ∀ permissions' : List PlatformGrant, permissions'.Perm permissions →
    ∃ has stepUp, checkPlatformPermission (.ok permissions') required = .ok (has, stepUp)
      ∧ (has = true ↔ ∃ g ∈ permissions, matchesPermission g.1 required = true)
      ∧ checkPlatformPermission (.ok permissions) required = .ok (has, stepUp)
      ∧ ((required, true) ∈ permissions → has = true ∧ stepUp = true)

/--
The answer is the one of the first grant that matches, so it is right if and only if they all say the same.
-/
theorem stepUpHolds_iff (required : String) (permissions : List PlatformGrant)
    : StepUpHolds required permissions ↔ Unanimous required permissions := by
  constructor
  . intro h g hg g' hg' hmatch hmatch'
    have hfirst : ∀ g ∈ permissions, matchesPermission g.1 required = true →
        firstMatch required permissions = (true, g.2) := by
      intro g hg hmatch
      have ⟨has, stepUp, hcheck, _, hcheck', _⟩ := h _ (List.perm_cons_erase hg).symm
      have heq := Except.ok.inj (hcheck.trans hcheck'.symm)
      rw [firstMatch_cons_of_matches hmatch] at heq
      exact heq.symm
    have heq := (hfirst g hg hmatch).symm.trans (hfirst g' hg' hmatch')
    exact (Prod.mk.inj heq).2
  . intro h permissions' hperm
    have hsame := h.firstMatch_perm hperm
    refine ⟨_, _, congrArg Except.ok hsame, firstMatch_fst, rfl, ?_⟩
    intro hmem
    have heq := h.firstMatch hmem (matchesPermission_self required)
    exact Prod.mk.inj heq

/--
Two permissions of the platform operator: the wildcard without a second factor stands first.
-/
theorem not_stepUpHolds : ¬ ∀ required permissions, StepUpHolds required permissions := by
  intro h
  have ⟨has, stepUp, hcheck, _, _, hexact⟩ :=
    h "ops:cluster_admin" [("ops:*", false), ("ops:cluster_admin", true)] _ (List.Perm.refl _)
  have hanswer : checkPlatformPermission (.ok [("ops:*", false), ("ops:cluster_admin", true)]) "ops:cluster_admin"
      = .ok (true, false) := by
    decide
  rw [hanswer] at hcheck
  have heq := (Prod.mk.inj (Except.ok.inj hcheck)).2
  rw [← heq] at hexact
  exact Bool.false_ne_true (hexact (by decide)).2

end

end Reactor.Auth
