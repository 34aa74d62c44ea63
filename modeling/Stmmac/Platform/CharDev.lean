import Mathlib.Data.Multiset.AddSub
import Stmmac.Library.History

/-!
# The character device

`char_dev_create.c` with the initialisation and the exit of the module, over what the kernel has
registered. The first creation reserves a range of `MAX_DEVICE_NUM` numbers, but the destruction
gives back a range of one: the range stays reserved.
-/

namespace Stmmac

open Library

/-- What is registered with the kernel. -/
inductive Registration where
  | region (major minor count : Nat)
  | cdev (major minor : Nat)
  | cls
  | device (major minor : Nat)
  | platformDriver
  deriving DecidableEq, Repr

/-- The static `major` of `char_dev_create.c` and the ledger of the kernel. -/
structure CharDev where
  major : Nat
  ledger : Multiset Registration

/-- The outcomes of the calls of `char_dev_create`; `alloc` is the major number of
`alloc_chrdev_region` if it succeeds. -/
structure CreateOutcome where
  register : Bool
  alloc : Option Nat
  cdevAdd : Bool
  classCreate : Bool
  deviceCreate : Bool

/-- `MAX_DEVICE_NUM`. -/
def maxDeviceNum : Nat := 32768

namespace CharDev

/-- A registration, if it succeeds. -/
def add (s : CharDev) (ok : Bool) (r : Registration) : CharDev :=
  if ok then { s with ledger := r ::ₘ s.ledger } else s

/-- What is not registered is not removed. -/
def remove (s : CharDev) (r : Registration) : CharDev := { s with ledger := s.ledger.erase r }

end CharDev

/-- `char_dev_create` after the device numbers are reserved; none of the results is looked at. -/
def charDevAdd (o : CreateOutcome) (s : CharDev) : CharDev :=
  let s := s.add o.cdevAdd (.cdev s.major 0)
  let s := s.add o.classCreate .cls
  s.add o.deviceCreate (.device s.major 0)

def charDevCreate (o : CreateOutcome) (s : CharDev) : Int × CharDev :=
  if s.major ≠ 0 then
    -- the result is overwritten by the return value
    (0, charDevAdd o (s.add o.register (.region s.major 0 1)))
  else
    match o.alloc with
    | none => (-1, s)
    | some major =>
      (0, charDevAdd o
        { s with major := major, ledger := .region major 0 maxDeviceNum ::ₘ s.ledger })

def charDevDestroy (s : CharDev) : CharDev :=
  let s := s.remove (.device s.major 0)
  let s := s.remove .cls
  let s := s.remove (.cdev s.major 0)
  s.remove (.region s.major 0 1)

/-- An error code of the kernel. -/
abbrev Errno := { e : Int // e < 0 }

/-- `char_net_init`; `driver` is the error of `platform_driver_register`. -/
def charNetInit (o : CreateOutcome) (driver : Option Errno) (s : CharDev) : Int × CharDev :=
  let (ret, s) := charDevCreate o s
  if ret < 0 then (-1, s)
  else
    match driver with
    | some e => (e, s)
    | none => (0, s.add true .platformDriver)

def charNetExit (s : CharDev) : CharDev := (charDevDestroy s).remove .platformDriver

/-! ## All or nothing -/

/-- The device numbers, the device, its class and its node are registered. -/
structure CharDevRegistered (s : CharDev) : Prop where
  region : ∃ count > 0, .region s.major 0 count ∈ s.ledger
  cdev : .cdev s.major 0 ∈ s.ledger
  cls : .cls ∈ s.ledger
  device : .device s.major 0 ∈ s.ledger

/-- A creation that fails leaves the ledger alone; one that succeeds registers everything, and a
destruction undoes it. -/
structure CreateAllOrNothing (o : CreateOutcome) (s : CharDev) : Prop where
  failed : (charDevCreate o s).1 < 0 → (charDevCreate o s).2.ledger = s.ledger
  created : (charDevCreate o s).1 = 0 → CharDevRegistered (charDevCreate o s).2
  undone : (charDevCreate o s).1 = 0 → (charDevDestroy (charDevCreate o s).2).ledger = s.ledger

/-- The same of the initialisation and the exit of the module. -/
structure InitAllOrNothing (o : CreateOutcome) (driver : Option Errno) (s : CharDev) : Prop where
  failed : (charNetInit o driver s).1 < 0 → (charNetInit o driver s).2.ledger = s.ledger
  created : (charNetInit o driver s).1 = 0 → CharDevRegistered (charNetInit o driver s).2 ∧
    .platformDriver ∈ (charNetInit o driver s).2.ledger
  undone : (charNetInit o driver s).1 = 0 →
    (charNetExit (charNetInit o driver s).2).ledger = s.ledger

/-- A creation followed by a destruction. -/
def charDevCycle (s : CharDev) (o : CreateOutcome) : CharDev :=
  charDevDestroy (charDevCreate o s).2

variable {s : CharDev} {o : CreateOutcome} {driver : Option Errno} {os : List CreateOutcome}
  {r : Registration} {major : Nat}

/-! ## Counting registrations -/

namespace CharDev

@[simp] theorem add_major (ok : Bool) : (s.add ok r).major = s.major := by
  unfold add
  split_ifs <;> rfl

@[simp] theorem remove_major : (s.remove r).major = s.major := rfl

theorem count_add_of_ne {r' : Registration} (ok : Bool) (h : r' ≠ r) :
    (s.add ok r).ledger.count r' = s.ledger.count r' := by
  unfold add
  split_ifs
  · exact Multiset.count_cons_of_ne h _
  · rfl

theorem count_remove_of_ne {r' : Registration} (h : r' ≠ r) :
    (s.remove r).ledger.count r' = s.ledger.count r' :=
  Multiset.count_erase_of_ne h _

end CharDev

/-- The ranges that are reserved. -/
theorem count_charDevAdd {minor count : Nat} :
    (charDevAdd o s).ledger.count (.region major minor count) =
      s.ledger.count (.region major minor count) := by
  unfold charDevAdd
  rw [CharDev.count_add_of_ne _ (by simp), CharDev.count_add_of_ne _ (by simp),
    CharDev.count_add_of_ne _ (by simp)]

/-- A destruction gives back no range but one of a single number. -/
theorem count_charDevDestroy {minor count : Nat} (h : count ≠ 1) :
    (charDevDestroy s).ledger.count (.region major minor count) =
      s.ledger.count (.region major minor count) := by
  unfold charDevDestroy
  rw [CharDev.count_remove_of_ne (by simp [h]), CharDev.count_remove_of_ne (by simp),
    CharDev.count_remove_of_ne (by simp), CharDev.count_remove_of_ne (by simp)]

/-! ## The first creation -/

theorem charDevCreate_of_alloc_eq_none (hmajor : s.major = 0) (h : o.alloc = none) :
    charDevCreate o s = (-1, s) := by
  simp [charDevCreate, hmajor, h]

theorem charDevCreate_of_alloc_eq_some (hmajor : s.major = 0) (h : o.alloc = some major) :
    charDevCreate o s =
      (0, charDevAdd o
        { s with major := major, ledger := .region major 0 maxDeviceNum ::ₘ s.ledger }) := by
  simp [charDevCreate, hmajor, h]

/-- A first creation that succeeds leaves one more range of `MAX_DEVICE_NUM` numbers. -/
theorem count_charDevCreate (hmajor : s.major = 0) (h : o.alloc = some major) :
    (charDevCreate o s).2.ledger.count (.region major 0 maxDeviceNum) =
      s.ledger.count (.region major 0 maxDeviceNum) + 1 := by
  rw [charDevCreate_of_alloc_eq_some hmajor h, count_charDevAdd, Multiset.count_cons_self]

theorem createAllOrNothing_iff (hmajor : s.major = 0) :
    CreateAllOrNothing o s ↔ o.alloc = none := by
  cases h : o.alloc with
  | none =>
    refine iff_of_true ?_ rfl
    have hcreate := charDevCreate_of_alloc_eq_none hmajor h
    exact ⟨fun _ => by rw [hcreate], fun hret => by simp [hcreate] at hret,
      fun hret => by simp [hcreate] at hret⟩
  | some major =>
    refine iff_of_false (fun hall => ?_) (Option.some_ne_none major)
    have hundone := hall.undone (by rw [charDevCreate_of_alloc_eq_some hmajor h])
    have hcount := congrArg (Multiset.count (.region major 0 maxDeviceNum)) hundone
    rw [count_charDevDestroy (by decide), count_charDevCreate hmajor h] at hcount
    omega

theorem initAllOrNothing_iff (hmajor : s.major = 0) :
    InitAllOrNothing o driver s ↔ o.alloc = none := by
  cases h : o.alloc with
  | none =>
    refine iff_of_true ?_ rfl
    have hinit : charNetInit o driver s = (-1, s) := by
      simp [charNetInit, charDevCreate_of_alloc_eq_none hmajor h]
    exact ⟨fun _ => by rw [hinit], fun hret => by simp [hinit] at hret,
      fun hret => by simp [hinit] at hret⟩
  | some major =>
    refine iff_of_false (fun hall => ?_) (Option.some_ne_none major)
    have hret : (charDevCreate o s).1 = 0 := by rw [charDevCreate_of_alloc_eq_some hmajor h]
    have hcount := count_charDevCreate hmajor h
    cases driver with
    | some e =>
      -- the creation is not undone
      have hinit : charNetInit o (some e) s = (e.1, (charDevCreate o s).2) := by
        simp [charNetInit, hret]
      have hfailed := hall.failed (by rw [hinit]; exact e.2)
      rw [hinit] at hfailed
      rw [hfailed] at hcount
      omega
    | none =>
      -- the exit does not undo it either
      have hinit : charNetInit o none s = (0, (charDevCreate o s).2.add true .platformDriver) := by
        simp [charNetInit, hret]
      have hundone := hall.undone (by rw [hinit])
      have hcount' := congrArg (Multiset.count (.region major 0 maxDeviceNum)) hundone
      rw [hinit, charNetExit, CharDev.count_remove_of_ne (by simp),
        count_charDevDestroy (by decide), CharDev.count_add_of_ne _ (by simp), hcount] at hcount'
      omega

/-! ## Alternation -/

/-- As long as no range is reserved, there is no major number. -/
theorem major_charDevCycle (hmajor : s.major = 0) (h : o.alloc = none) :
    (charDevCycle s o).major = 0 := by
  rw [charDevCycle, charDevCreate_of_alloc_eq_none hmajor h]
  exact hmajor

/-- The device is registered all or nothing, and the registration undone, exactly when
`alloc_chrdev_region` fails in the initialisation and in each creation. -/
theorem char_dev_all_or_nothing_iff (ledger : Multiset Registration) (o : CreateOutcome)
    (driver : Option Errno) (os : List CreateOutcome) :
    (InitAllOrNothing o driver ⟨0, ledger⟩ ↔ o.alloc = none) ∧
      ((∀ done o, done ++ [o] <+: os → CreateAllOrNothing o (done.foldl charDevCycle ⟨0, ledger⟩)) ↔
        ∀ o ∈ os, o.alloc = none) := by
  refine ⟨initAllOrNothing_iff rfl, ?_⟩
  exact forall_event_iff (I := fun s : CharDev => s.major = 0)
    (Q := fun s o => CreateAllOrNothing o s) (fun _ _ hs => createAllOrNothing_iff hs)
    (fun _ _ hs ho => major_charDevCycle hs ho) rfl

/-- Everything succeeds, and the exit leaves 32768 numbers reserved. -/
theorem char_dev_left_registered :
    ¬ InitAllOrNothing ⟨true, some 250, true, true, true⟩ none ⟨0, 0⟩ :=
  fun h => absurd (h.undone rfl) (by decide)

end Stmmac
