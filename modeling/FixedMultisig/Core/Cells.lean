import FixedMultisig.Core.Exec

/-!
# Typed cells of a store

A store is read and written through typed cells: a singleton holds at most one
value, a bucket holds at most one value for each key.  A cell carries the laws
of its accessors, so that a cell which loses or leaks a write cannot be built.
The operations are those of a contract's storage layer; only a missing value
makes one of them fail.
-/

universe u v

namespace FixedMultisig

/-- One optional value inside a store. -/
structure Singleton (S V : Type u) where
  get : S → Option V
  set : V → S → S
  get_set : ∀ value store, get (set value store) = some value

/-- One optional value for each key inside a store. -/
structure Bucket (S K V : Type u) where
  get : S → K → Option V
  set : K → V → S → S
  get_set : ∀ key value store, get (set key value store) key = some value
  get_set_of_ne : ∀ {key other} value store, other ≠ key →
    get (set key value store) other = get store other

variable {S K V B : Type u} {E : Type v}

namespace Singleton

variable (cell : Singleton S V)

def load (missing : E) : Exec S E V := do
  match ← Exec.read cell.get with
  | some value => pure value
  | none => Exec.fail missing

def save (value : V) : Exec S E PUnit := Exec.write (cell.set value)

/-- Load, transform and save; returns the value saved. -/
def update (missing : E) (action : V → Exec S E V) : Exec S E V := do
  let input ← cell.load missing
  let output ← action input
  cell.save output
  pure output

variable {cell}

theorem run_load_bind {missing : E} {next : V → Exec S E B} {store : S}
    {value : V} (hget : cell.get store = some value) :
    (cell.load missing >>= next).run store = (next value).run store := by
  simp [Exec.run_bind _ next, load, hget]

theorem run_load_bind_missing {missing : E} {next : V → Exec S E B} {store : S}
    (hget : cell.get store = none) :
    (cell.load missing >>= next).run store =
      ⟨.error (.error missing), store, []⟩ := by
  simp [Exec.run_bind _ next, load, hget]

theorem run_update_bind {missing : E} {action : V → Exec S E V}
    {next : V → Exec S E B} {store : S} {input output : V}
    (hget : cell.get store = some input)
    (haction : (action input).run store = ⟨.ok output, store, []⟩) :
    (cell.update missing action >>= next).run store =
      ⟨((next output).run (cell.set output store)).result,
        ((next output).run (cell.set output store)).store,
        cell.set output store ::
          ((next output).run (cell.set output store)).trace⟩ := by
  rw [Exec.run_bind, update, run_load_bind hget, Exec.run_bind, haction]
  simp [save]

theorem run_update_bind_missing {missing : E} {action : V → Exec S E V}
    {next : V → Exec S E B} {store : S} (hget : cell.get store = none) :
    (cell.update missing action >>= next).run store =
      ⟨.error (.error missing), store, []⟩ := by
  rw [Exec.run_bind, update, run_load_bind_missing hget, Exec.andThen_error]

theorem run_update_bind_halt {missing : E} {action : V → Exec S E V}
    {next : V → Exec S E B} {store : S} {input : V} {halt : Halt E}
    (hget : cell.get store = some input)
    (haction : (action input).run store = ⟨.error halt, store, []⟩) :
    (cell.update missing action >>= next).run store =
      ⟨.error halt, store, []⟩ := by
  rw [Exec.run_bind, update, run_load_bind hget, Exec.run_bind, haction]
  rfl

end Singleton

namespace Bucket

variable (bucket : Bucket S K V)

def mayLoad (key : K) : Exec S E (Option V) :=
  Exec.read fun store => bucket.get store key

def load (missing : E) (key : K) : Exec S E V := do
  match ← bucket.mayLoad key with
  | some value => pure value
  | none => Exec.fail missing

def save (key : K) (value : V) : Exec S E PUnit :=
  Exec.write (bucket.set key value)

variable {bucket}

@[simp]
theorem run_mayLoad_bind {key : K} {next : Option V → Exec S E B} {store : S} :
    (bucket.mayLoad key >>= next).run store =
      (next (bucket.get store key)).run store := rfl

theorem run_load_bind {missing : E} {key : K} {next : V → Exec S E B}
    {store : S} {value : V} (hget : bucket.get store key = some value) :
    (bucket.load missing key >>= next).run store = (next value).run store := by
  simp [Exec.run_bind _ next, load, hget]

theorem run_load_bind_missing {missing : E} {key : K} {next : V → Exec S E B}
    {store : S} (hget : bucket.get store key = none) :
    (bucket.load missing key >>= next).run store =
      ⟨.error (.error missing), store, []⟩ := by
  simp [Exec.run_bind _ next, load, hget]

/-- A loop that saves one entry after the other. -/
theorem run_forM_save_bind {A : Type u} (key : A → K) (value : A → V)
    (entries : List A) (next : PUnit → Exec S E B) (store : S) :
    ∃ trace, ((entries.forM fun entry =>
        bucket.save (key entry) (value entry)) >>= next).run store =
      Exec.andThen ⟨.ok ⟨⟩, entries.foldl (fun store entry =>
        bucket.set (key entry) (value entry) store) store, trace⟩ next := by
  induction entries generalizing store with
  | nil => exact ⟨[], rfl⟩
  | cons entry entries ih =>
      obtain ⟨trace, htrace⟩ := ih (bucket.set (key entry) (value entry) store)
      refine ⟨bucket.set (key entry) (value entry) store :: trace, ?_⟩
      rw [List.forM_eq_forM, List.forM_cons, Exec.run_bind_bind, save,
        Exec.run_write_bind, ← List.forM_eq_forM, htrace]
      rfl

end Bucket

end FixedMultisig
