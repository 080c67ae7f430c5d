import FixedMultisig.Core.Cells
import Mathlib.Data.List.Forall2
import Mathlib.Data.Option.Basic

/-!
# Two calls side by side

Two calls match when, started in related stores, they end the same way: both
with values that are related, or both with the same error, or both with a trap;
and the stores they leave are related again.  The two calls may differ, in the
names they use or in data that does not matter; the rules say what has to be
checked construct by construct.
-/

universe u v

namespace FixedMultisig.Exec

variable {S S' A A' B B' K V V' : Type u} {E : Type v}

/-- Related values, or the same halt. -/
def Agree (values : A → A' → Prop) :
    Except (Halt E) A → Except (Halt E) A' → Prop
  | .ok value, .ok value' => values value value'
  | .error halt, .error halt' => halt = halt'
  | _, _ => False

theorem agree_eq_iff {result result' : Except (Halt E) A} :
    Agree Eq result result' ↔ result = result' := by
  cases result <;> cases result' <;> simp [Agree]

theorem agree_map_iff {f : A → A'} {result : Except (Halt E) A}
    {result' : Except (Halt E) A'} :
    Agree (fun value value' => value' = f value) result result' ↔
      result' = result.map f := by
  cases result <;> cases result' <;> simp [Agree, Except.map, eq_comm]

def Matched (related : S → S' → Prop) (values : A → A' → Prop)
    (call : Exec S E A) (call' : Exec S' E A') : Prop :=
  ∀ store store', related store store' →
    Agree values (call.run store).result (call'.run store').result ∧
      related (call.run store).store (call'.run store').store

/-- Equal optional values are related by equality. -/
theorem optionRel_eq {value value' : Option A} (heq : value = value') :
    Option.Rel Eq value value' := by
  subst heq
  cases value with
  | none => exact .none
  | some value => exact .some rfl

namespace Matched

variable {related : S → S' → Prop} {values : A → A' → Prop}
variable {results : B → B' → Prop}

theorem pure {value : A} {value' : A'} (hvalues : values value value') :
    Matched related values (Pure.pure value : Exec S E A)
      (Pure.pure value' : Exec S' E A') :=
  fun _ _ hrelated => ⟨hvalues, hrelated⟩

theorem fail (reason : E) :
    Matched related values (Exec.fail reason : Exec S E A)
      (Exec.fail reason : Exec S' E A') :=
  fun _ _ hrelated => ⟨rfl, hrelated⟩

theorem lift {value : Option A} {value' : Option A'}
    (hvalues : Option.Rel values value value') :
    Matched related values (Exec.lift value : Exec S E A)
      (Exec.lift value' : Exec S' E A') := by
  cases hvalues with
  | none => exact fun _ _ hrelated => ⟨rfl, hrelated⟩
  | some hvalues => exact .pure hvalues

theorem ofExcept (result : Except E A) :
    Matched related Eq (Exec.ofExcept result : Exec S E A)
      (Exec.ofExcept result : Exec S' E A) := by
  cases result with
  | error reason => exact .fail reason
  | ok value => exact .pure rfl

theorem read {f : S → A} {f' : S' → A'}
    (hf : ∀ store store', related store store' →
      values (f store) (f' store')) :
    Matched related values (Exec.read f : Exec S E A)
      (Exec.read f' : Exec S' E A') :=
  fun store store' hrelated => ⟨hf store store' hrelated, hrelated⟩

theorem write {f : S → S} {f' : S' → S'}
    (hf : ∀ store store', related store store' →
      related (f store) (f' store')) :
    Matched related Eq (Exec.write f : Exec S E PUnit)
      (Exec.write f' : Exec S' E PUnit) :=
  fun store store' hrelated => ⟨rfl, hf store store' hrelated⟩

theorem bind {first : Exec S E A} {first' : Exec S' E A'}
    {next : A → Exec S E B} {next' : A' → Exec S' E B'}
    (hfirst : Matched related values first first')
    (hnext : ∀ value value', values value value' →
      Matched related results (next value) (next' value')) :
    Matched related results (first >>= next) (first' >>= next') := by
  intro store store' hrelated
  obtain ⟨hresult, hstore⟩ := hfirst store store' hrelated
  rw [run_bind, run_bind]
  revert hresult hstore
  rcases first.run store with ⟨result, middle, trace⟩
  rcases first'.run store' with ⟨result', middle', trace'⟩
  intro hresult hstore
  -- The two first calls ended the same way.
  cases result with
  | error halt =>
      cases result' with
      | error halt' => exact ⟨hresult, hstore⟩
      | ok value' => exact hresult.elim
  | ok value =>
      cases result' with
      | error halt' => exact hresult.elim
      | ok value' => exact hnext value value' hresult middle middle' hstore

/-- Two first calls that return the same. -/
theorem bind_eq {first : Exec S E A} {first' : Exec S' E A}
    {next : A → Exec S E B} {next' : A → Exec S' E B'}
    (hfirst : Matched related Eq first first')
    (hnext : ∀ value, Matched related results (next value) (next' value)) :
    Matched related results (first >>= next) (first' >>= next') := by
  apply hfirst.bind
  rintro value _ rfl
  exact hnext value

theorem map {f : A → B} {f' : A' → B'} {call : Exec S E A}
    {call' : Exec S' E A'} (hcall : Matched related values call call')
    (hf : ∀ value value', values value value' →
      results (f value) (f' value')) :
    Matched related results (f <$> call) (f' <$> call') := by
  apply hcall.bind
  intro value value' hvalues
  exact .pure (hf value value' hvalues)

theorem fail_bind {reason : E} {next : A → Exec S E B}
    {next' : A' → Exec S' E B'} :
    Matched related results ((Exec.fail reason : Exec S E A) >>= next)
      ((Exec.fail reason : Exec S' E A') >>= next') :=
  fun _ _ hrelated => ⟨rfl, hrelated⟩

/-- A check that stops both calls or neither. -/
theorem guard {check check' : Prop} [Decidable check] [Decidable check']
    {reason : E} {next : PUnit → Exec S E B} {next' : PUnit → Exec S' E B'}
    (hcheck : check ↔ check')
    (hnext : Matched related results (next ⟨⟩) (next' ⟨⟩)) :
    Matched related results
      (if check then Exec.fail reason >>= next else next ⟨⟩)
      (if check' then Exec.fail reason >>= next' else next' ⟨⟩) := by
  by_cases hfails : check
  · rw [if_pos hfails, if_pos (hcheck.1 hfails)]
    exact fun _ _ hrelated => ⟨rfl, hrelated⟩
  · rw [if_neg hfails, if_neg (mt hcheck.2 hfails)]
    exact hnext

/-- Two loops over lists of related entries. -/
theorem forM {X X' : Type u} {entries : X → X' → Prop} {list : List X}
    {list' : List X'} {body : X → Exec S E PUnit} {body' : X' → Exec S' E PUnit}
    (hlist : List.Forall₂ entries list list')
    (hbody : ∀ entry entry', entries entry entry' →
      Matched related Eq (body entry) (body' entry')) :
    Matched related Eq (list.forM body) (list'.forM body') := by
  induction hlist with
  | nil => exact .pure rfl
  | cons hentry _ ih =>
      rw [List.forM_eq_forM, List.forM_eq_forM, List.forM_cons, List.forM_cons]
      apply (hbody _ _ hentry).bind_eq
      intro _
      exact ih

/-- A host that keeps related stores keeps them related. -/
theorem commit {call : Exec S E A} {call' : Exec S' E A'}
    (hcall : Matched related values call call') {store : S} {store' : S'}
    (hrelated : related store store') :
    related (call.commit store) (call'.commit store') := by
  obtain ⟨hresult, hstore⟩ := hcall store store' hrelated
  rw [Exec.commit, Exec.commit]
  revert hresult
  rcases (call.run store).result with halt | value
  · rcases (call'.run store').result with halt' | value'
    · exact fun _ => hrelated
    · exact fun hresult => hresult.elim
  · rcases (call'.run store').result with halt' | value'
    · exact fun hresult => hresult.elim
    · exact fun _ => hstore

section Cells

variable {cell : Singleton S V} {cell' : Singleton S' V'}
variable {bucket : Bucket S K V} {bucket' : Bucket S' K V'}
variable {entries : V → V' → Prop}

theorem load {missing : E}
    (hget : ∀ store store', related store store' →
      Option.Rel entries (cell.get store) (cell'.get store')) :
    Matched related entries (cell.load missing) (cell'.load missing) := by
  apply Matched.bind (.read hget)
  intro value value' hvalues
  cases hvalues with
  | none => exact .fail missing
  | some hvalues => exact .pure hvalues

theorem save {value : V} {value' : V'}
    (hset : ∀ store store', related store store' →
      related (cell.set value store) (cell'.set value' store')) :
    Matched related Eq (cell.save value : Exec S E PUnit)
      (cell'.save value' : Exec S' E PUnit) :=
  .write hset

theorem update {missing : E} {action : V → Exec S E V}
    {action' : V' → Exec S' E V'}
    (hget : ∀ store store', related store store' →
      Option.Rel entries (cell.get store) (cell'.get store'))
    (hset : ∀ value value', entries value value' →
      ∀ store store', related store store' →
        related (cell.set value store) (cell'.set value' store'))
    (haction : ∀ value value', entries value value' →
      Matched related entries (action value) (action' value')) :
    Matched related entries (cell.update missing action)
      (cell'.update missing action') := by
  apply Matched.bind (.load hget)
  intro input input' hinput
  apply (haction input input' hinput).bind
  intro output output' houtput
  apply Matched.bind_eq (.write (hset output output' houtput))
  intro _
  exact .pure houtput

theorem mayLoad {key key' : K}
    (hget : ∀ store store', related store store' →
      Option.Rel entries (bucket.get store key) (bucket'.get store' key')) :
    Matched related (Option.Rel entries)
      (bucket.mayLoad key : Exec S E (Option V))
      (bucket'.mayLoad key' : Exec S' E (Option V')) :=
  .read hget

theorem loadKey {missing : E} {key key' : K}
    (hget : ∀ store store', related store store' →
      Option.Rel entries (bucket.get store key) (bucket'.get store' key')) :
    Matched related entries (bucket.load missing key)
      (bucket'.load missing key') := by
  apply Matched.bind (.mayLoad hget)
  intro value value' hvalues
  cases hvalues with
  | none => exact .fail missing
  | some hvalues => exact .pure hvalues

theorem saveKey {key key' : K} {value : V} {value' : V'}
    (hset : ∀ store store', related store store' →
      related (bucket.set key value store) (bucket'.set key' value' store')) :
    Matched related Eq (bucket.save key value : Exec S E PUnit)
      (bucket'.save key' value' : Exec S' E PUnit) :=
  .write hset

end Cells

end Matched

end FixedMultisig.Exec
