import Mathlib.Algebra.Group.Nat.Defs
import Mathlib.Data.List.Basic

/-!
# Length-prefixed framing

Byte strings put one after another, each behind its length in four bytes, most
significant first. The lengths say where each string ends, so the strings can be
told apart again (`frames_inj`).
-/

namespace Framing

open List

/-- `u32::to_be_bytes`. -/
def beBytes (n : Nat) : List UInt8 :=
  [UInt8.ofNat (n / 2 ^ 24), UInt8.ofNat (n / 2 ^ 16), UInt8.ofNat (n / 2 ^ 8), UInt8.ofNat n]

/-- A byte string behind its length. -/
def framed (bytes : List UInt8) : List UInt8 := beBytes bytes.length ++ bytes

/-- Byte strings behind their lengths, one after another. -/
def frames (items : List (List UInt8)) : List UInt8 := items.flatMap framed

theorem length_beBytes (n : Nat) : (beBytes n).length = 4 := rfl

theorem length_framed (bytes : List UInt8) : (framed bytes).length = 4 + bytes.length := by
  unfold framed
  rw [length_append, length_beBytes]

/-- Four bytes hold every length below `2 ^ 32`. -/
theorem beBytes_inj {m n : Nat} (hm : m < 2 ^ 32) (hn : n < 2 ^ 32) (h : beBytes m = beBytes n) : m = n := by
  unfold beBytes at h
  simp only [cons.injEq, and_true] at h
  obtain ⟨hthi, hsec, hfs, hlast⟩ := h
  have hbyte (a b : Nat) (hab : UInt8.ofNat a = UInt8.ofNat b) : a % 256 = b % 256 := by
    have htoNat := congrArg UInt8.toNat hab
    exact htoNat
  have hthi := hbyte _ _ hthi
  have hsec := hbyte _ _ hsec
  have hfs := hbyte _ _ hfs
  have hlast := hbyte _ _ hlast
  omega

/-- What stands behind a length is as long as it says. -/
theorem framed_append_inj {first second rest rest' : List UInt8} (hfs : first.length < 2 ^ 32)
    (hsec : second.length < 2 ^ 32) (h : framed first ++ rest = framed second ++ rest') :
    first = second ∧ rest = rest' := by
  unfold framed at h
  rw [append_assoc, append_assoc] at h
  obtain ⟨hlng, hbytes⟩ := append_inj h rfl
  exact append_inj hbytes (beBytes_inj hfs hsec hlng)

/-- **Framed strings can be told apart.** -/
theorem frames_inj {items others : List (List UInt8)} (hitems : ∀ bytes ∈ items, bytes.length < 2 ^ 32)
    (hoths : ∀ bytes ∈ others, bytes.length < 2 ^ 32) (h : frames items = frames others) : items = others := by
  have hnil (bytes : List UInt8) (rest : List (List UInt8)) : frames (bytes :: rest) ≠ [] := by
    intro hemp
    have hlng := congrArg length hemp
    rw [frames, flatMap_cons, length_append, length_framed, length_nil] at hlng
    omega
  induction items generalizing others with
  | nil =>
    cases others with
    | nil => rfl
    | cons bytes rest => exact absurd h.symm (hnil bytes rest)
  | cons bytes rest ih =>
    cases others with
    | nil => exact absurd h (hnil bytes rest)
    | cons =>
      obtain ⟨hhead, htail⟩ := framed_append_inj (hitems _ mem_cons_self) (hoths _ mem_cons_self) h
      have hrest := ih (fun b hb => hitems b (mem_cons_of_mem _ hb)) (fun b hb => hoths b (mem_cons_of_mem _ hb)) htail
      rw [hhead, hrest]

end Framing
