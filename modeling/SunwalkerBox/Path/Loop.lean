import SunwalkerBox.Path.ResolveAbs
import Mathlib.Logic.Relation
/-!
# Symlink cycles

`resolve_abs` caps its recursion at level 255 and calls the overflow a
filesystem loop. Nothing else stops a cycle of symlinks, so the cap must
catch every one. `Calls c d` says that evaluating the call `c` makes the
nested call `d`; a cycle is a chain of such calls from `(t, a, m)` back to
the same target and accumulator at a deeper level.

What the level changes is only where the cap bites:
`resolveAbs_agrees_of_le` says a deeper call returns what a shallower one
does, or a loop error. So a chain of calls made at one level is made again
from any deeper one, or that call fails with a loop (`Calls.shift`), and an
error of a nested call is the error of every call that makes it
(`TransGen.run_error`). By induction on the depth left below the cap, a
call that reaches itself fails with `FilesystemLoop`, and so does every
call on the way to it (`resolveAbs_cycle_loop`).
-/

namespace SunwalkerBox

open Relation

/-- A call `resolve_abs(path, root, acc, link_level)`, for a fixed root. -/
structure Call where
  path : List Component
  acc : Bytes
  linkLevel : Nat

variable {readLink : Bytes → Option (List Component)} {root : Bytes}

/-- What a call returns. -/
def Call.run (readLink : Bytes → Option (List Component)) (root : Bytes) (c : Call) :
    Except Failure Bytes :=
  resolveAbs readLink root c.path c.acc c.linkLevel

/-- The same call, `δ` levels deeper. -/
def Call.shift (δ : Nat) (c : Call) : Call := ⟨c.path, c.acc, c.linkLevel + δ⟩

/-- Evaluating `c` makes the nested call `d`: the level check passes, the
components before some `Normal(part)` succeed with accumulator `d.acc`, and
`read_link` finds at `d.acc/part` a link whose target is `d.path`. -/
def Calls (readLink : Bytes → Option (List Component)) (root : Bytes) (c d : Call) : Prop :=
  c.linkLevel ≤ 255 ∧ d.linkLevel = c.linkLevel + 1 ∧
    ∃ pre part post, c.path = pre ++ .normal part :: post ∧
      pre.foldlM (resolveComponent readLink root fun t a => resolveAbs readLink root t a
        (c.linkLevel + 1)) c.acc = .ok d.acc ∧
      readLink (d.acc ++ sep :: part.bytes) = some d.path

/-- **A nested call's error is the caller's.** -/
theorem Calls.run_error {c d : Call} {e : Failure} (h : Calls readLink root c d)
    (hd : d.run readLink root = .error e) : c.run readLink root = .error e := by
  obtain ⟨hle, hlvl, pre, part, post, hpath, hpre, hlink⟩ := h
  rw [Call.run, resolveAbs_of_le hle, hpath, List.foldlM_append, hpre, except_ok_bind,
    List.foldlM_cons]
  simp only [resolveComponent, List.take_left' rfl, hlink, ← hlvl]
  rw [show resolveAbs readLink root d.path d.acc d.linkLevel = _ from hd]
  rfl

theorem TransGen.run_error {c d : Call} {e : Failure} (h : TransGen (Calls readLink root) c d)
    (hd : d.run readLink root = .error e) : c.run readLink root = .error e := by
  induction h with
  | single hcd => exact hcd.run_error hd
  | tail _ hde ih => exact ih (hde.run_error hd)

theorem TransGen.linkLevel_lt {c d : Call} (h : TransGen (Calls readLink root) c d) :
    c.linkLevel < d.linkLevel := by
  induction h with
  | single hcd => have := hcd.2.1; omega
  | tail _ hde ih => have := hde.2.1; omega

/-! ## Deeper calls -/

/-- `x` is `y`, or a loop error. -/
def AgreesBelowCap {α : Type} (x y : Except Failure α) : Prop :=
  x = y ∨ x = .error .filesystemLoop

theorem foldlM_agreesBelowCap {α β : Type} {g h : β → α → Except Failure β}
    (hgh : ∀ b a, AgreesBelowCap (g b a) (h b a)) (l : List α) (b : β) :
    AgreesBelowCap (l.foldlM g b) (l.foldlM h b) := by
  induction l generalizing b with
  | nil => exact .inl rfl
  | cons a l ih =>
    simp only [List.foldlM_cons]
    rcases hgh b a with hab | hab
    · rw [hab]
      cases h b a with
      | error e => exact .inl rfl
      | ok b' => exact ih b'
    · rw [hab]; exact .inr rfl

theorem resolveComponent_agreesBelowCap {r₁ r₂ : List Component → Bytes → Except Failure Bytes}
    (hr : ∀ t a, AgreesBelowCap (r₁ t a) (r₂ t a)) (acc : Bytes) (c : Component) :
    AgreesBelowCap (resolveComponent readLink root r₁ acc c) (resolveComponent readLink root r₂ acc c) := by
  cases c with
  | normal part =>
    simp only [resolveComponent]
    split
    · exact hr _ _
    · exact .inl rfl
  | _ => exact .inl rfl

/-- **A deeper call returns the same, or a loop error.** -/
theorem resolveAbs_agreesBelowCap (path : List Component) (acc : Bytes) {m n : Nat} (hmn : m ≤ n) :
    AgreesBelowCap (resolveAbs readLink root path acc n) (resolveAbs readLink root path acc m) := by
  induction path, acc, m using resolveAbs.induct readLink root generalizing n with
  | case1 path acc m hm => exact .inr (resolveAbs_of_gt (by omega))
  | case2 path acc m hm ih =>
    by_cases hn : n > 255
    · exact .inr (resolveAbs_of_gt hn)
    rw [resolveAbs_of_le (by omega), resolveAbs_of_le (by omega)]
    exact foldlM_agreesBelowCap (resolveComponent_agreesBelowCap
      fun t a => ih t a (by omega)) path acc

/-- **A nested call is made again from deeper**, unless the deeper caller
fails with a loop first. -/
theorem Calls.shift {c d : Call} (h : Calls readLink root c d) (δ : Nat) :
    (c.shift δ).run readLink root = .error .filesystemLoop ∨
      Calls readLink root (c.shift δ) (d.shift δ) := by
  obtain ⟨hle, hlvl, pre, part, post, hpath, hpre, hlink⟩ := h
  by_cases hgt : c.linkLevel + δ > 255
  · exact .inl (resolveAbs_of_gt hgt)
  have hagree : AgreesBelowCap
      (pre.foldlM (resolveComponent readLink root fun t a =>
        resolveAbs readLink root t a (c.linkLevel + δ + 1)) c.acc)
      (pre.foldlM (resolveComponent readLink root fun t a =>
        resolveAbs readLink root t a (c.linkLevel + 1)) c.acc) :=
    foldlM_agreesBelowCap (resolveComponent_agreesBelowCap fun t a =>
      resolveAbs_agreesBelowCap t a (by omega)) pre c.acc
  rcases hagree with hpre' | hpre'
  · exact .inr ⟨show c.linkLevel + δ ≤ 255 by omega,
      show d.linkLevel + δ = c.linkLevel + δ + 1 by omega, pre, part, post, hpath,
      hpre'.trans hpre, hlink⟩
  · left
    show resolveAbs readLink root c.path c.acc (c.linkLevel + δ) = _
    rw [resolveAbs_of_le (by omega), hpath, List.foldlM_append, hpre']
    rfl

theorem TransGen.shift {c d : Call} (h : TransGen (Calls readLink root) c d) (δ : Nat) :
    (c.shift δ).run readLink root = .error .filesystemLoop ∨
      TransGen (Calls readLink root) (c.shift δ) (d.shift δ) := by
  induction h with
  | single hcd => exact (hcd.shift δ).imp id .single
  | tail _ hde ih =>
    rcases ih with ih | ih
    · exact .inl ih
    · rcases hde.shift δ with hd | hd
      · exact .inl (TransGen.run_error ih hd)
      · exact .inr (.tail ih hd)

/-- **Every symlink cycle is a loop error**, in the call that starts it and
in every call on the way to that one. -/
theorem resolveAbs_cycle_loop {t : List Component} {a : Bytes} {m k : Nat}
    (h : TransGen (Calls readLink root) ⟨t, a, m⟩ ⟨t, a, m + k⟩) :
    ∀ c, ReflTransGen (Calls readLink root) c ⟨t, a, m⟩ →
      resolveAbs readLink root c.path c.acc c.linkLevel = .error .filesystemLoop := by
  have hk : 0 < k := by have := TransGen.linkLevel_lt h; simp at this; omega
  have hself : ∀ n δ, 256 - (m + δ) ≤ n →
      resolveAbs readLink root t a (m + δ) = .error .filesystemLoop := by
    intro n
    induction n with
    | zero => intro δ hδ; exact resolveAbs_of_gt (by omega)
    | succ n ih =>
      intro δ hδ
      rcases TransGen.shift h δ with hl | hs
      · exact hl
      · refine TransGen.run_error hs ?_
        simp only [Call.run, Call.shift]
        rw [show m + k + δ = m + (δ + k) by omega]
        exact ih (δ + k) (by omega)
  intro c hc
  rcases reflTransGen_iff_eq_or_transGen.1 hc with rfl | hc
  · exact hself _ 0 le_rfl
  · exact TransGen.run_error hc (hself _ 0 le_rfl)

/-- A link `space -> space` at `/newroot/space`. -/
def selfLink (p : Bytes) : Option (List Component) :=
  if p = byteString "/newroot/space" then some [.normal spaceSegment] else none

/-- Resolving `space` against it reaches itself one level deeper, and fails. -/
theorem resolveAbs_selfLink_loop :
    TransGen (Calls selfLink newroot) ⟨[.normal spaceSegment], newroot, 0⟩
        ⟨[.normal spaceSegment], newroot, 0 + 1⟩ ∧
      resolveAbs selfLink newroot [.normal spaceSegment] newroot 0 = .error .filesystemLoop := by
  have h : TransGen (Calls selfLink newroot) ⟨[.normal spaceSegment], newroot, 0⟩
      ⟨[.normal spaceSegment], newroot, 0 + 1⟩ :=
    .single ⟨by decide, rfl, [], spaceSegment, [], rfl, rfl, by decide⟩
  exact ⟨h, resolveAbs_cycle_loop h _ .refl⟩

end SunwalkerBox
