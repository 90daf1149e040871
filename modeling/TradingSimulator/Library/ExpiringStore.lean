import Mathlib.Algebra.Group.Defs
import Mathlib.Logic.Function.Basic
import Mathlib.Order.Defs.LinearOrder

/-!
# A key-value store with expiry

Every value is stored with a deadline, and a lookup at or after the deadline finds nothing. An
expired value stays in the map; as no operation can see it, this is the same as removing it.

`Absent` says that a key has no value, expired or not. It is what survives: no lookup finds an
absent key at any time, and only storing under the key itself changes it.
-/

/-- A value and its deadline for every key that has been stored. -/
structure ExpiringStore (κ ν T : Type*) where
  entries : κ → Option (ν × T)

namespace ExpiringStore

variable {κ ν T : Type*}

/-- The store without any key. -/
def empty : ExpiringStore κ ν T := ⟨fun _ => none⟩

/-- The value of a key that has not expired at the time `now`. -/
def get [LT T] [DecidableLT T] (store : ExpiringStore κ ν T) (now : T) (key : κ) : Option ν :=
  match store.entries key with
  | some (value, deadline) => if now < deadline then some value else none
  | none => none

/-- Store a value that expires `ttl` after the time `now`. -/
def setex [DecidableEq κ] [Add T] (store : ExpiringStore κ ν T) (now : T) (key : κ) (ttl : T)
    (value : ν) : ExpiringStore κ ν T :=
  ⟨Function.update store.entries key (some (value, now + ttl))⟩

/-- Remove a key. -/
def delete [DecidableEq κ] (store : ExpiringStore κ ν T) (key : κ) : ExpiringStore κ ν T :=
  ⟨Function.update store.entries key none⟩

/-- The key has no value, expired or not. -/
def Absent (store : ExpiringStore κ ν T) (key : κ) : Prop := store.entries key = none

theorem absent_empty (key : κ) : (empty : ExpiringStore κ ν T).Absent key := rfl

/-- An absent key is not found. -/
theorem Absent.get [LT T] [DecidableLT T] {store : ExpiringStore κ ν T} {key : κ}
    (h : store.Absent key) (now : T) : store.get now key = none := by
  rw [ExpiringStore.get, h]

section Updates

variable [DecidableEq κ] {store : ExpiringStore κ ν T} {key other : κ}

theorem absent_delete_self (store : ExpiringStore κ ν T) (key : κ) :
    (store.delete key).Absent key :=
  Function.update_self ..

/-- Removing any key leaves absent keys absent. -/
theorem Absent.delete (h : store.Absent key) (other : κ) : (store.delete other).Absent key := by
  by_cases hsame : key = other
  · subst hsame
    exact absent_delete_self store key
  · exact (Function.update_of_ne hsame _ _).trans h

/-- Storing under another key leaves absent keys absent. -/
theorem Absent.setex [Add T] (h : store.Absent key) (hne : key ≠ other) (now ttl : T) (value : ν) :
    (store.setex now other ttl value).Absent key :=
  (Function.update_of_ne hne _ _).trans h

end Updates

end ExpiringStore
