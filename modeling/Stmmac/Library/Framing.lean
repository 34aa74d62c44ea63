import Mathlib.Data.List.Infix

/-!
# Frames in a stream of marked items

A frame of several items is sent as a stream in which each item says whether it is the first and
whether it is the last of its frame. A reader puts the frames together again: what it has read of a
frame before its first item does not matter, and after its last item nothing is left over.
-/

namespace Stmmac.Library

variable {α : Type*}

structure FrameItem (α : Type*) where
  first : Bool
  last : Bool
  item : α
  deriving DecidableEq, Repr

/-- The items of a frame, or of the rest of one. -/
def frameItemsFrom : Bool → List α → List (FrameItem α)
  | _, [] => []
  | first, x :: xs => ⟨first, xs.isEmpty, x⟩ :: frameItemsFrom false xs

def frameItems (xs : List α) : List (FrameItem α) := frameItemsFrom true xs

/-- The frames read so far, and the items read since. -/
structure Reader (α : Type*) where
  part : List α
  out : List (List α)
  deriving DecidableEq, Repr

namespace Reader

/-- A first item starts a frame anew. -/
def read (r : Reader α) (m : FrameItem α) : Reader α :=
  let part := (if m.first then [] else r.part) ++ [m.item]
  if m.last then ⟨[], r.out ++ [part]⟩ else ⟨part, r.out⟩

end Reader

section

variable {xs : List α} {first : Bool} {r : Reader α} {ms : List (FrameItem α)} {i : Nat}

@[simp] theorem length_frameItemsFrom : (frameItemsFrom first xs).length = xs.length := by
  fun_induction frameItemsFrom first xs <;> simp_all

@[simp] theorem length_frameItems : (frameItems xs).length = xs.length := length_frameItemsFrom

theorem getElem?_frameItemsFrom (first : Bool) (xs : List α) (i : Nat) :
    (frameItemsFrom first xs)[i]? =
      xs[i]?.map fun x => ⟨first && i == 0, i + 1 == xs.length, x⟩ := by
  induction xs generalizing first i with
  | nil => rfl
  | cons x xs ih =>
    cases i with
    | zero => cases xs <;> simp [frameItemsFrom]
    | succ i => simp [frameItemsFrom, ih false i]

theorem getElem?_frameItems (xs : List α) (i : Nat) :
    (frameItems xs)[i]? = xs[i]?.map fun x => ⟨i == 0, i + 1 == xs.length, x⟩ :=
  getElem?_frameItemsFrom true xs i

/-- The rest of a frame is put behind what has been read of it. -/
theorem foldl_read_frameItemsFrom (h : xs ≠ []) :
    (frameItemsFrom false xs).foldl Reader.read r = ⟨[], r.out ++ [r.part ++ xs]⟩ := by
  induction xs generalizing r with
  | nil => exact absurd rfl h
  | cons x xs ih =>
    cases xs with
    | nil => simp [frameItemsFrom, Reader.read]
    | cons y xs =>
      rw [frameItemsFrom, List.foldl_cons, ih (by simp)]
      simp [Reader.read]

/-- A frame is read back whole. -/
theorem foldl_read_frameItems (h : xs ≠ []) :
    (frameItems xs).foldl Reader.read r = ⟨[], r.out ++ [xs]⟩ := by
  cases xs with
  | nil => exact absurd rfl h
  | cons x xs =>
    cases xs with
    | nil => simp [frameItems, frameItemsFrom, Reader.read]
    | cons y xs =>
      rw [frameItems, frameItemsFrom, List.foldl_cons, foldl_read_frameItemsFrom (by simp)]
      simp [Reader.read]

/-- A frame that has been read stays so. -/
theorem prefix_foldl_read : r.out <+: (ms.foldl Reader.read r).out := by
  induction ms generalizing r with
  | nil => exact List.prefix_rfl
  | cons m ms ih =>
    refine List.IsPrefix.trans ?_ ih
    cases hlast : m.last with
    | true => simp [Reader.read, hlast]
    | false => simp [Reader.read, hlast]

end

end Stmmac.Library
