import Mathlib.Data.List.AList

/-!
# Go maps and error returns

The Go sources keep their state in maps (`map[string]*ACLUserState`, `map[string]*Change`, ...)
and return an `error` beside each result.  A map is modelled as an association list with
unique keys (`AList`), which gives `m[k] = v` (`insert`), `delete(m, k)` (`erase`) and lookup with
their lemmas; Go does not fix the iteration order of a map, and the model iterates in the order
of the entries.  A call that returns `(value, error)` is a function into `Except`.

Go orders strings by their bytes, which on UTF-8 strings is the order of their code points, the
order of core Lean's `String.instLT`.  Mathlib's `String.LT'` is the same order, defined by
well-founded recursion over iterators, so a sort or a search over it does not evaluate; the core
instances are given priority below, so that every module orders strings by them.
-/

namespace AnySyncNode

/-- Go's `<` on strings: core Lean's order. -/
instance (priority := high) instLTString : LT String := String.instLT

/-- Go's `<=` on strings: core Lean's order. -/
instance (priority := high) instLEString : LE String := String.instLE

instance (priority := high) decLtString (a b : String) : Decidable (a < b) := String.decLt a b

instance (priority := high) decLEString (a b : String) : Decidable (a ≤ b) := String.decLE a b

/-- A Go `map[K]V`. -/
abbrev GoMap (K V : Type) := AList (fun _ : K => V)

theorem Except.bind_eq_ok {ε α β : Type} {x : Except ε α} {f : α → Except ε β} {b : β} :
    x >>= f = .ok b ↔ ∃ a, x = .ok a ∧ f a = .ok b := by
  cases x <;> simp [bind, Except.bind]

@[simp] theorem Except.pure_eq_ok {ε α : Type} {a b : α} :
    (pure a : Except ε α) = .ok b ↔ a = b := by
  simp [pure, Except.pure]

@[simp] theorem Except.mapError_eq_ok {ε ε' α : Type} {f : ε → ε'} {x : Except ε α} {a : α} :
    x.mapError f = .ok a ↔ x = .ok a := by
  cases x <;> simp [Except.mapError]

@[simp] theorem Except.throw_ne_ok {ε α : Type} {e : ε} {b : α} :
    (throw e : Except ε α) ≠ .ok b := by
  simp [throw, throwThe, MonadExceptOf.throw]

end AnySyncNode
