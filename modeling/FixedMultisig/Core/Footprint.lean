import FixedMultisig.Core.Relational

/-!
# What calls read and write

A call is read-only when it leaves every store as it was, with no write on the
way.  A call is congruent for a relation of stores if from related stores it returns
the same and leaves related stores.  With the relation "equal in these parts"
this bounds what a call reads: nothing outside the parts has an influence.
Such a call matches itself, so the rules of matching calls carry over, and
congruence follows the text of a program.
-/

universe u v

namespace FixedMultisig.Exec

variable {S A B K V : Type u} {E : Type v}

/-- From related stores the call ends the same way, in related stores. -/
def Congruent (related : S → S → Prop) (call : Exec S E A) : Prop :=
  ∀ store store', related store store' →
    (call.run store).result = (call.run store').result ∧
      related (call.run store).store (call.run store').store

variable {related : S → S → Prop}

/-- A call is congruent when it matches itself. -/
theorem congruent_iff_matched {call : Exec S E A} :
    Congruent related call ↔ Matched related Eq call call := by
  simp only [Congruent, Matched, agree_eq_iff]

theorem Congruent.pure (value : A) :
    Congruent related (Pure.pure value : Exec S E A) :=
  congruent_iff_matched.2 (.pure rfl)

theorem Congruent.fail (reason : E) :
    Congruent related (Exec.fail reason : Exec S E A) :=
  congruent_iff_matched.2 (.fail reason)

theorem Congruent.lift (value : Option A) :
    Congruent related (Exec.lift value : Exec S E A) :=
  congruent_iff_matched.2 (.lift (optionRel_eq rfl))

theorem Congruent.bind {first : Exec S E A} {next : A → Exec S E B}
    (hfirst : Congruent related first)
    (hnext : ∀ value, Congruent related (next value)) :
    Congruent related (first >>= next) := by
  apply congruent_iff_matched.2
  apply (congruent_iff_matched.1 hfirst).bind_eq
  intro value
  exact congruent_iff_matched.1 (hnext value)

/-- A check that stops the call or does nothing. -/
theorem Congruent.guard {check : Prop} [Decidable check] {reason : E}
    {next : PUnit → Exec S E B} (hnext : Congruent related (next ⟨⟩)) :
    Congruent related
      (if check then Exec.fail reason >>= next else next ⟨⟩) :=
  congruent_iff_matched.2 (.guard Iff.rfl (congruent_iff_matched.1 hnext))

/-- A host that keeps related stores keeps them related. -/
theorem Congruent.commit {call : Exec S E A} (hcall : Congruent related call)
    {store store' : S} (hrelated : related store store') :
    related (call.commit store) (call.commit store') :=
  (congruent_iff_matched.1 hcall).commit hrelated

section Cells

variable {cell : Singleton S V} {bucket : Bucket S K V}

theorem Congruent.load {missing : E}
    (hget : ∀ store store', related store store' →
      cell.get store = cell.get store') :
    Congruent related (cell.load missing) := by
  apply congruent_iff_matched.2
  exact .load fun store store' hrelated =>
    optionRel_eq (hget store store' hrelated)

theorem Congruent.update {missing : E} {action : V → Exec S E V}
    (hget : ∀ store store', related store store' →
      cell.get store = cell.get store')
    (hset : ∀ value store store', related store store' →
      related (cell.set value store) (cell.set value store'))
    (haction : ∀ value, Congruent related (action value)) :
    Congruent related (cell.update missing action) := by
  apply congruent_iff_matched.2
  apply Matched.update (fun store store' hrelated =>
    optionRel_eq (hget store store' hrelated))
  · rintro value _ rfl
    exact hset value
  · rintro value _ rfl
    exact congruent_iff_matched.1 (haction value)

theorem Congruent.mayLoad {key : K}
    (hget : ∀ store store', related store store' →
      bucket.get store key = bucket.get store' key) :
    Congruent related (bucket.mayLoad key : Exec S E (Option V)) :=
  congruent_iff_matched.2 (.read hget)

theorem Congruent.loadKey {missing : E} {key : K}
    (hget : ∀ store store', related store store' →
      bucket.get store key = bucket.get store' key) :
    Congruent related (bucket.load missing key) := by
  apply congruent_iff_matched.2
  exact .loadKey fun store store' hrelated =>
    optionRel_eq (hget store store' hrelated)

theorem Congruent.saveKey {key : K} {value : V}
    (hset : ∀ store store', related store store' →
      related (bucket.set key value store) (bucket.set key value store')) :
    Congruent related (bucket.save key value : Exec S E PUnit) :=
  congruent_iff_matched.2 (.saveKey hset)

end Cells

/-! ## Calls that do not write -/

def ReadOnly (call : Exec S E A) : Prop :=
  ∀ store, ∃ result, call.run store = ⟨result, store, []⟩

theorem ReadOnly.pure (value : A) :
    ReadOnly (Pure.pure value : Exec S E A) :=
  fun _ => ⟨_, rfl⟩

theorem ReadOnly.fail (reason : E) : ReadOnly (Exec.fail reason : Exec S E A) :=
  fun _ => ⟨_, rfl⟩

theorem ReadOnly.lift (value : Option A) :
    ReadOnly (Exec.lift value : Exec S E A) := by
  cases value with
  | none => exact fun _ => ⟨_, rfl⟩
  | some value => exact .pure value

theorem ReadOnly.read (f : S → A) : ReadOnly (Exec.read f : Exec S E A) :=
  fun _ => ⟨_, rfl⟩

theorem ReadOnly.bind {first : Exec S E A} {next : A → Exec S E B}
    (hfirst : ReadOnly first) (hnext : ∀ value, ReadOnly (next value)) :
    ReadOnly (first >>= next) := by
  intro store
  obtain ⟨result, hrun⟩ := hfirst store
  rw [run_bind, hrun]
  cases result with
  | error halt => exact ⟨_, rfl⟩
  | ok value =>
      obtain ⟨result, hrun⟩ := hnext value store
      rw [andThen_ok, hrun]
      exact ⟨_, rfl⟩

theorem ReadOnly.map {call : Exec S E A} (hcall : ReadOnly call) (f : A → B) :
    ReadOnly (f <$> call) :=
  hcall.bind fun value => .pure (f value)

theorem ReadOnly.load (cell : Singleton S V) (missing : E) :
    ReadOnly (cell.load missing) := by
  apply ReadOnly.bind (.read _)
  intro value
  cases value with
  | none => exact .fail missing
  | some value => exact .pure value

theorem ReadOnly.loadKey (bucket : Bucket S K V) (missing : E) (key : K) :
    ReadOnly (bucket.load missing key) := by
  apply ReadOnly.bind (.read _)
  intro value
  cases value with
  | none => exact .fail missing
  | some value => exact .pure value

end FixedMultisig.Exec
