import Mathlib.Data.Nat.Notation
import VideoStorage.Foundation.Fallible

/-!
# Awaiting under a deadline

A sequence of awaits that is dropped when the time is up: the state is the time
that has passed, and an answer that is not there by the limit is an error of its
own.
-/

namespace VideoStorage.Foundation

/-- What a call will answer, and how long it takes. -/
structure Answer (ε α : Type) where
  latency : ℕ
  result : Except ε α

abbrev Timed (ε α : Type) : Type := StateT ℕ (Except ε) α

variable {ε ε' α β : Type}

/-- The answer of a call, if it is there by the limit. -/
def await (limit : ℕ) (late : ε') (err : ε → ε') (a : Answer ε α) : Timed ε' α :=
  fun elapsed =>
    if limit < elapsed + a.latency then .error late
    else (a.result.mapError err).map fun x => (x, elapsed + a.latency)

/-- What takes no time. -/
def atOnce (x : Except ε α) : Timed ε α := fun elapsed =>
  x.map fun a => (a, elapsed)

section Ok

variable {t t' : ℕ} {x : α}

theorem await_eq_ok {limit : ℕ} {late : ε'} {err : ε → ε'} {a : Answer ε α} :
    await limit late err a t = .ok (x, t') ↔
      a.result = .ok x ∧ t' = t + a.latency ∧ t' ≤ limit := by
  unfold await
  rw [ite_error_eq_ok, map_eq_ok]
  simp only [mapError_eq_ok, Prod.mk.injEq]
  constructor
  · rintro ⟨hle, _, hx, rfl, rfl⟩
    exact ⟨hx, rfl, Nat.not_lt.mp hle⟩
  · rintro ⟨hx, rfl, hle⟩
    exact ⟨Nat.not_lt.mpr hle, x, hx, rfl, rfl⟩

theorem atOnce_eq_ok {e : Except ε α} :
    atOnce e t = .ok (x, t') ↔ e = .ok x ∧ t' = t := by
  unfold atOnce
  rw [map_eq_ok]
  simp only [Prod.mk.injEq]
  constructor
  · rintro ⟨_, h, rfl, rfl⟩
    exact ⟨h, rfl⟩
  · rintro ⟨h, rfl⟩
    exact ⟨x, h, rfl, rfl⟩

theorem timed_bind_eq_ok {m : Timed ε α} {f : α → Timed ε β} {y : β} :
    (m >>= f) t = .ok (y, t') ↔
      ∃ x t₁, m t = .ok (x, t₁) ∧ f x t₁ = .ok (y, t') := by
  show (m t >>= fun p => f p.1 p.2) = _ ↔ _
  rw [bind_eq_ok]
  constructor
  · rintro ⟨⟨x, t₁⟩, h, h'⟩
    exact ⟨x, t₁, h, h'⟩
  · rintro ⟨x, t₁, h, h'⟩
    exact ⟨(x, t₁), h, h'⟩

end Ok

end VideoStorage.Foundation
