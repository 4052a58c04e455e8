/-
**A reservation that absorbs what grew over its baseline.** A resource is used by strangers to the
extent of `rest`, and `reserved` of it is promised. What grew over `baseline` counts as the promise
being taken up, so it is not counted a second time; the rest of the use is external. Three ways to
move the baseline with the promise have exact costs:

* `Reservation.grant` — rebased on what is external, a promise of `v` more costs exactly `v`;
* `Reservation.release` — a release of `v` rebased with its bytes still promised costs what it can
  have absorbed;
* `Reservation.confirm` — taking released bytes out of the promise frees exactly the part of them
  that is not absorbed.
-/

import Mathlib.Data.Int.Basic
import Mathlib.Order.Basic

namespace PawBackend.Lib

/-- What `rest` bytes of foreign use and a promise of `reserved` over `baseline` come to. -/
structure Reservation where
  rest : ℤ
  reserved : ℤ
  baseline : ℤ

namespace Reservation

def use (p : Reservation) : ℤ := min p.reserved (max 0 (p.rest - max 0 p.baseline))

def external (p : Reservation) : ℤ := p.rest - p.use

def committed (p : Reservation) : ℤ := p.reserved + p.external

variable {p : Reservation} {v : ℤ}

theorem use_nonneg (reserved : 0 ≤ p.reserved) : 0 ≤ p.use := by
  unfold use
  omega

theorem use_le_reserved (p : Reservation) : p.use ≤ p.reserved := by
  unfold use
  omega

theorem external_nonneg (rest : 0 ≤ p.rest) : 0 ≤ p.external := by
  unfold external use
  omega

theorem grant (rest : 0 ≤ p.rest) (reserved : 0 ≤ p.reserved) (more : 0 ≤ v) :
    committed ⟨p.rest, p.reserved + v, p.external + min 0 p.use⟩ = p.committed + v := by
  unfold committed external use
  dsimp only
  omega

theorem grant_le (rest : 0 ≤ p.rest) (more : 0 ≤ v) :
    p.committed ≤ committed ⟨p.rest, p.reserved + v, p.external + min 0 p.use⟩ := by
  unfold committed external use
  dsimp only
  omega

theorem release (rest : 0 ≤ p.rest) (reserved : 0 ≤ p.reserved) (released : 0 ≤ v) :
    committed ⟨p.rest, p.reserved, p.external + min v p.use⟩ = p.committed + min v p.use := by
  unfold committed external use
  dsimp only
  omega

theorem confirm (rest : 0 ≤ p.rest) {carried : ℤ} (nonneg : 0 ≤ carried) (within : carried ≤ p.reserved) :
    committed ⟨p.rest, p.reserved - carried, p.external + min carried p.use⟩ =
      p.committed - (carried - min carried p.use) := by
  unfold committed external use
  dsimp only
  omega

end Reservation

end PawBackend.Lib
