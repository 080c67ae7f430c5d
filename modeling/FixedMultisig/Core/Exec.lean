import Mathlib.Logic.Function.Basic

/-!
# Calls over a store

A call reads and writes a store and ends in one of three ways: it returns a
value, it returns an error, or it traps.  The outcome keeps the store exactly
as the call left it, also after an error or a trap, together with the store
after every single write; only the host that runs the call decides what to
keep.  `commit` is the host of a blockchain: it keeps the writes of a call that
returns a value and drops all others.
-/

universe u v

namespace FixedMultisig

/-- Why a call returns no value. -/
inductive Halt (E : Type v) where
  | error (reason : E)
  | abort
  deriving DecidableEq

/-- Everything observable about a call: its result, the store it leaves, and
the stores after each of its writes in order. -/
structure Outcome (S : Type u) (E : Type v) (A : Type u) where
  result : Except (Halt E) A
  store : S
  trace : List S

structure Exec (S : Type u) (E : Type v) (A : Type u) where
  run : S → Outcome S E A

namespace Exec

variable {S A B : Type u} {E : Type v}

/-- Continue after a call that returned a value; an error or a trap stops
here, with every write made until then. -/
def andThen (outcome : Outcome S E A) (next : A → Exec S E B) :
    Outcome S E B :=
  match outcome with
  | ⟨.ok value, middle, trace⟩ =>
      ⟨((next value).run middle).result, ((next value).run middle).store,
        trace ++ ((next value).run middle).trace⟩
  | ⟨.error halt, middle, trace⟩ => ⟨.error halt, middle, trace⟩

instance : Monad (Exec S E) where
  pure value := ⟨fun store => ⟨.ok value, store, []⟩⟩
  bind first next := ⟨fun store => andThen (first.run store) next⟩

def read (f : S → A) : Exec S E A := ⟨fun store => ⟨.ok (f store), store, []⟩⟩

def write (f : S → S) : Exec S E PUnit :=
  ⟨fun store => ⟨.ok ⟨⟩, f store, [f store]⟩⟩

def fail (reason : E) : Exec S E A :=
  ⟨fun store => ⟨.error (.error reason), store, []⟩⟩

/-- A checked computation; a missing value traps. -/
def lift : Option A → Exec S E A
  | some value => pure value
  | none => ⟨fun store => ⟨.error .abort, store, []⟩⟩

/-- A fallible computation that does not touch the store. -/
def ofExcept : Except E A → Exec S E A
  | .ok value => pure value
  | .error reason => fail reason

@[simp]
theorem run_pure (value : A) (store : S) :
    (pure value : Exec S E A).run store = ⟨.ok value, store, []⟩ := rfl

@[simp]
theorem run_fail (reason : E) (store : S) :
    (fail reason : Exec S E A).run store =
      ⟨.error (.error reason), store, []⟩ := rfl

@[simp]
theorem run_lift_none (store : S) :
    (lift none : Exec S E A).run store = ⟨.error .abort, store, []⟩ := rfl

theorem run_bind (first : Exec S E A) (next : A → Exec S E B) (store : S) :
    (first >>= next).run store = andThen (first.run store) next := rfl

@[simp]
theorem andThen_ok (value : A) (middle : S) (trace : List S)
    (next : A → Exec S E B) :
    andThen (⟨.ok value, middle, trace⟩ : Outcome S E A) next =
      ⟨((next value).run middle).result, ((next value).run middle).store,
        trace ++ ((next value).run middle).trace⟩ := rfl

@[simp]
theorem andThen_error (halt : Halt E) (middle : S) (trace : List S)
    (next : A → Exec S E B) :
    andThen (⟨.error halt, middle, trace⟩ : Outcome S E A) next =
      ⟨.error halt, middle, trace⟩ := rfl

@[simp]
theorem run_pure_bind (value : A) (next : A → Exec S E B) (store : S) :
    ((pure value : Exec S E A) >>= next).run store = (next value).run store :=
  rfl

theorem run_bind_of_eq_pure {first : Exec S E A} {value : A}
    (hfirst : first = pure value) (next : A → Exec S E B) (store : S) :
    (first >>= next).run store = (next value).run store := by
  rw [hfirst, run_pure_bind]

@[simp]
theorem run_read_bind (f : S → A) (next : A → Exec S E B) (store : S) :
    ((read f : Exec S E A) >>= next).run store = (next (f store)).run store :=
  rfl

@[simp]
theorem run_write_bind (f : S → S) (next : PUnit → Exec S E B) (store : S) :
    ((write f : Exec S E PUnit) >>= next).run store =
      ⟨((next ⟨⟩).run (f store)).result, ((next ⟨⟩).run (f store)).store,
        f store :: ((next ⟨⟩).run (f store)).trace⟩ := rfl

@[simp]
theorem run_fail_bind (reason : E) (next : A → Exec S E B) (store : S) :
    ((fail reason : Exec S E A) >>= next).run store =
      ⟨.error (.error reason), store, []⟩ := rfl

@[simp]
theorem run_lift_some_bind (value : A) (next : A → Exec S E B) (store : S) :
    ((lift (some value) : Exec S E A) >>= next).run store =
      (next value).run store := rfl

@[simp]
theorem run_ofExcept_ok_bind (value : A) (next : A → Exec S E B) (store : S) :
    ((ofExcept (.ok value) : Exec S E A) >>= next).run store =
      (next value).run store := rfl

/-- Sequencing is associative, traces included. -/
theorem run_bind_bind {C : Type u} (first : Exec S E A) (second : A → Exec S E B)
    (third : B → Exec S E C) (store : S) :
    ((first >>= second) >>= third).run store =
      (first >>= fun value => second value >>= third).run store := by
  simp only [run_bind]
  cases first.run store with
  | mk result middle trace =>
      cases result with
      | error halt => rfl
      | ok value =>
          rw [andThen_ok, andThen_ok, run_bind]
          cases (second value).run middle with
          | mk result' middle' trace' =>
              cases result' with
              | error halt => rfl
              | ok value' => simp only [andThen_ok, List.append_assoc]

theorem result_map (f : A → B) (call : Exec S E A) (store : S) :
    ((f <$> call).run store).result = (call.run store).result.map f := by
  change (andThen (call.run store) fun value => pure (f value)).result = _
  rcases call.run store with ⟨result, middle, trace⟩
  cases result <;> rfl

/-- A chain host keeps the writes of a call that returns a value and drops
those of any other call. -/
def commit (call : Exec S E A) (store : S) : S :=
  match (call.run store).result with
  | .ok _ => (call.run store).store
  | .error _ => store

theorem commit_of_ok {call : Exec S E A} {store : S} {value : A}
    (hok : (call.run store).result = .ok value) :
    call.commit store = (call.run store).store := by
  simp [commit, hok]

theorem commit_of_error {call : Exec S E A} {store : S} {halt : Halt E}
    (herror : (call.run store).result = .error halt) :
    call.commit store = store := by
  simp [commit, herror]

end Exec

end FixedMultisig
