import Mathlib

/-!
# Programs that read and write memory

A program that reads bytes of one array and stores entries into another is a tree of its accesses.
Run on the bytes of a memory it has a result, and it touches certain places: this is what it means
for the program to stay within bounds.
-/

namespace QcloudIot

/-- A program that reads bytes, stores entries, and ends or fails. -/
inductive Access (ε α : Type) where
  | done (value : α)
  | fail (error : ε)
  | read (place : Nat) (next : UInt8 → Access ε α)
  | store (place : Nat) (entry : UInt8) (next : Access ε α)

namespace Access

variable {ε α β : Type}

/-- A program followed by another one that is given its value. -/
def andThen : Access ε α → (α → Access ε β) → Access ε β
  | done value, rest => rest value
  | fail error, _ => fail error
  | read place next, rest => read place fun byte => (next byte).andThen rest
  | store place entry next, rest => store place entry (next.andThen rest)

instance : Monad (Access ε) where
  pure := done
  bind := andThen

/-- The byte at a place. -/
def byte (place : Nat) : Access ε UInt8 := read place done

/-- Store an entry at a place. -/
def put (place : Nat) (entry : UInt8) : Access ε Unit := store place entry (done ())

/-- What a program returns. -/
def result (memory : Nat → UInt8) : Access ε α → Except ε α
  | done value => .ok value
  | fail error => .error error
  | read place next => (next (memory place)).result memory
  | store _ _ next => next.result memory

/-- The places that a program reads. -/
def reads (memory : Nat → UInt8) : Access ε α → List Nat
  | done _ => []
  | fail _ => []
  | read place next => place :: (next (memory place)).reads memory
  | store _ _ next => next.reads memory

/-- The places that a program stores entries at. -/
def stores (memory : Nat → UInt8) : Access ε α → List Nat
  | done _ => []
  | fail _ => []
  | read place next => (next (memory place)).stores memory
  | store place _ next => place :: next.stores memory

variable (memory : Nat → UInt8)

@[simp] theorem result_pure (value : α) :
    (pure value : Access ε α).result memory = .ok value := rfl

@[simp] theorem reads_pure (value : α) : (pure value : Access ε α).reads memory = [] := rfl

@[simp] theorem stores_pure (value : α) : (pure value : Access ε α).stores memory = [] := rfl

@[simp] theorem result_fail (error : ε) :
    (fail error : Access ε α).result memory = .error error := rfl

@[simp] theorem reads_fail (error : ε) : (fail error : Access ε α).reads memory = [] := rfl

@[simp] theorem stores_fail (error : ε) : (fail error : Access ε α).stores memory = [] := rfl

@[simp] theorem fail_bind (error : ε) (rest : α → Access ε β) :
    (fail error >>= rest : Access ε β) = fail error := rfl

@[simp] theorem pure_bind (value : α) (rest : α → Access ε β) :
    (pure value >>= rest : Access ε β) = rest value := rfl

@[simp] theorem result_byte (place : Nat) (rest : UInt8 → Access ε α) :
    (byte place >>= rest).result memory = (rest (memory place)).result memory := rfl

@[simp] theorem reads_byte (place : Nat) (rest : UInt8 → Access ε α) :
    (byte place >>= rest).reads memory = place :: (rest (memory place)).reads memory := rfl

@[simp] theorem stores_byte (place : Nat) (rest : UInt8 → Access ε α) :
    (byte place >>= rest).stores memory = (rest (memory place)).stores memory := rfl

@[simp] theorem result_put (place : Nat) (entry : UInt8) (rest : Unit → Access ε α) :
    (put place entry >>= rest).result memory = (rest ()).result memory := rfl

@[simp] theorem reads_put (place : Nat) (entry : UInt8) (rest : Unit → Access ε α) :
    (put place entry >>= rest).reads memory = (rest ()).reads memory := rfl

@[simp] theorem stores_put (place : Nat) (entry : UInt8) (rest : Unit → Access ε α) :
    (put place entry >>= rest).stores memory = place :: (rest ()).stores memory := rfl

theorem result_bind (first : Access ε α) (rest : α → Access ε β) :
    (first >>= rest).result memory =
      first.result memory >>= fun value => (rest value).result memory := by
  induction first with
  | done value => rfl
  | fail error => rfl
  | read place next ih => exact ih (memory place)
  | store place entry next ih => exact ih

/-- A program that ends is followed by the rest. -/
theorem reads_bind {first : Access ε α} {value : α} (rest : α → Access ε β)
    (ends : first.result memory = .ok value) :
    (first >>= rest).reads memory = first.reads memory ++ (rest value).reads memory := by
  induction first with
  | done value' =>
    obtain rfl : value' = value := Except.ok.inj ends
    rfl
  | fail error => exact nomatch ends
  | read place next ih => exact congrArg (place :: ·) (ih (memory place) ends)
  | store place entry next ih => exact ih ends

theorem stores_bind {first : Access ε α} {value : α} (rest : α → Access ε β)
    (ends : first.result memory = .ok value) :
    (first >>= rest).stores memory = first.stores memory ++ (rest value).stores memory := by
  induction first with
  | done value' =>
    obtain rfl : value' = value := Except.ok.inj ends
    rfl
  | fail error => exact nomatch ends
  | read place next ih => exact ih (memory place) ends
  | store place entry next ih => exact congrArg (place :: ·) (ih ends)

/-- What follows a program stores nothing. -/
theorem stores_bind_nil (first : Access ε α) {rest : α → Access ε β}
    (none : ∀ value, (rest value).stores memory = []) :
    (first >>= rest).stores memory = first.stores memory := by
  induction first with
  | done value => exact none value
  | fail error => rfl
  | read place next ih => exact ih (memory place)
  | store place entry next ih => exact congrArg (place :: ·) ih

end Access

end QcloudIot
