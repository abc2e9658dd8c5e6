/- A handle of an event loop, as the code that uses the loop sees it.

   A handle is not in the loop, or open, or closing until its close callback has run. The loop
   promises nothing about a handle that is initialised while it is in the loop, or closed while
   it is not open: such a call is a fault, which the caller names. -/
namespace LoopHandle

variable {κ φ : Type}

/-- A handle; `busy` says whether it keeps the loop running, and `cb` is the callback that
its close was asked with. -/
inductive Handle (κ : Type) where
  | raw
  | opened (busy : Bool)
  | closing (cb : κ)
  deriving DecidableEq

namespace Handle

/-- Initialising a handle, with what the loop returns. -/
def init (misuse : φ) (ret : Int) : Handle κ → Except φ (Handle κ)
  | .raw => .ok (if ret = 0 then .opened false else .raw)
  | _ => .error misuse

/-- Closing a handle. -/
def close (misuse : φ) (cb : κ) : Handle κ → Except φ (Handle κ)
  | .opened _ => .ok (.closing cb)
  | _ => .error misuse

/-- Closing a handle that a walk through the loop finds, unless it is closing. -/
def closeWalk (cb : κ) : Handle κ → Handle κ
  | .opened _ => .closing cb
  | h => h

/-- The close callback of the handle has run. -/
def closed : Handle κ → Handle κ
  | .closing _ => .raw
  | h => h

/-- Whether the handle keeps the loop running. -/
def alive : Handle κ → Bool
  | .raw => false
  | .opened busy => busy
  | .closing _ => true

section
variable {h h' : Handle κ} {misuse f : φ} {ret : Int} {cb : κ} {b : Bool}

theorem init_ok (hok : h.init misuse ret = .ok h') : h = .raw ∧ h' = if ret = 0 then .opened false else .raw := by
  cases h with
  | raw => exact ⟨rfl, (Except.ok.inj hok).symm⟩
  | opened b => cases hok
  | closing cb => cases hok

theorem init_error (hf : h.init misuse ret = .error f) : h ≠ .raw ∧ f = misuse := by
  cases h with
  | raw => cases hf
  | opened b => exact ⟨nofun, (Except.error.inj hf).symm⟩
  | closing cb => exact ⟨nofun, (Except.error.inj hf).symm⟩

theorem close_ok (hok : h.close misuse cb = .ok h') : (∃ b, h = .opened b) ∧ h' = .closing cb := by
  cases h with
  | raw => cases hok
  | opened b => exact ⟨⟨b, rfl⟩, (Except.ok.inj hok).symm⟩
  | closing cb => cases hok

theorem close_error (hf : h.close misuse cb = .error f) : f = misuse := by
  cases h with
  | opened b => cases hf
  | raw => exact (Except.error.inj hf).symm
  | closing cb => exact (Except.error.inj hf).symm

@[simp] theorem closeWalk_ne_opened : h.closeWalk cb ≠ .opened b := by
  cases h <;> nofun

@[simp] theorem closed_eq_opened : h.closed = .opened b ↔ h = .opened b := by
  cases h <;> simp [closed]

end

end Handle

end LoopHandle
