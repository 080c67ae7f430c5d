import Mathlib.Data.List.Basic

/-!
# Interleaved operations on independent parts

A state is seen through views, one for each key.  An operation concerns some
of the keys: it leaves the views of all others as they are, and what it does to
a view that it concerns, and what it returns, depends on this view alone.  A
view after a list of operations is then the view after those that concern its
key, and two interleavings of the same sequences reach the same state.
-/

namespace FixedMultisig

/-- Operations on a state that is seen through views.  The laws hold in the
states that are valid for the key. -/
structure Views (S L R K W : Type*) where
  step : S → L → S
  result : S → L → R
  view : K → S → W
  concerns : K → L → Bool
  Valid : K → S → Prop
  valid_step : ∀ {key state} label, Valid key state →
    Valid key (step state label)
  frame : ∀ {key state label}, Valid key state → concerns key label = false →
    view key (step state label) = view key state
  congr_step : ∀ {key state state' label}, Valid key state →
    Valid key state' → concerns key label = true →
    view key state = view key state' →
    view key (step state label) = view key (step state' label)
  congr_result : ∀ {key state state' label}, Valid key state →
    Valid key state' → concerns key label = true →
    view key state = view key state' →
    result state label = result state' label

namespace Views

variable {S L R K W : Type*} (views : Views S L R K W)

/-- The state after the operations. -/
def run (state : S) (labels : List L) : S := labels.foldl views.step state

/-- What the operations that concern the key return along the run. -/
def observed (key : K) : S → List L → List R
  | _, [] => []
  | state, label :: labels =>
      if views.concerns key label then
        views.result state label ::
          observed key (views.step state label) labels
      else observed key (views.step state label) labels

variable {views} {key : K}

/-- From states that look alike, the operations that do not concern the key
make no difference to its view, nor to what the others return. -/
theorem run_congr {state state' : S} (hvalid : views.Valid key state)
    (hvalid' : views.Valid key state')
    (hview : views.view key state = views.view key state') (labels : List L) :
    views.view key (views.run state labels) =
        views.view key
          (views.run state' (labels.filter (views.concerns key))) ∧
      views.observed key state labels =
        views.observed key state' (labels.filter (views.concerns key)) := by
  induction labels generalizing state state' with
  | nil => exact ⟨hview, rfl⟩
  | cons label labels ih =>
      have hnext := views.valid_step label hvalid
      cases hconcerns : views.concerns key label with
      | true =>
          obtain ⟨hrun, hobserved⟩ := ih hnext (views.valid_step label hvalid')
            (views.congr_step hvalid hvalid' hconcerns hview)
          rw [List.filter_cons_of_pos hconcerns, observed, observed,
            if_pos hconcerns, if_pos hconcerns, hobserved,
            views.congr_result hvalid hvalid' hconcerns hview]
          exact ⟨hrun, rfl⟩
      | false =>
          have hskip : ¬ views.concerns key label = true := by simp [hconcerns]
          rw [List.filter_cons_of_neg hskip, observed, if_neg hskip]
          exact ih hnext hvalid' ((views.frame hvalid hconcerns).trans hview)

/-- Two interleavings with the same operations on each key, in the same order,
look the same under every key and return the same. -/
theorem run_of_filters {state : S} (hvalid : ∀ key, views.Valid key state)
    {labels labels' : List L}
    (hfilters : ∀ key, labels.filter (views.concerns key) =
      labels'.filter (views.concerns key)) (key : K) :
    views.view key (views.run state labels) =
        views.view key (views.run state labels') ∧
      views.observed key state labels = views.observed key state labels' := by
  obtain ⟨hrun, hobserved⟩ := run_congr (hvalid key) (hvalid key) rfl labels
  obtain ⟨hrun', hobserved'⟩ := run_congr (hvalid key) (hvalid key) rfl labels'
  rw [hrun, hrun', hobserved, hobserved', hfilters key]
  exact ⟨rfl, rfl⟩

end Views

/-- Of the operations made for distinct keys, those that name a key are the
one made for it. -/
theorem filter_filterMap_of_nodup {K L : Type*} [DecidableEq K]
    {make : K → Option L} {names : K → L → Bool}
    (hnames : ∀ {key other label}, make other = some label →
      (names key label = true ↔ key = other))
    (key : K) {keys : List K} (hnodup : keys.Nodup) :
    (keys.filterMap make).filter (names key) =
      if key ∈ keys then (make key).toList else [] := by
  induction keys with
  | nil => rfl
  | cons first keys ih =>
      obtain ⟨hfirst, hrest⟩ := List.nodup_cons.1 hnodup
      by_cases hkey : key = first
      · subst hkey
        rw [if_pos List.mem_cons_self, List.filterMap_cons]
        cases hmake : make key with
        | none => simp [ih hrest, hfirst]
        | some label =>
            simp [List.filter_cons_of_pos ((hnames hmake).2 rfl), ih hrest,
              hfirst]
      · rw [List.filterMap_cons]
        cases hmake : make first with
        | none => simp [ih hrest, hkey]
        | some label =>
            have hskip : ¬ names key label = true :=
              fun h => hkey ((hnames hmake).1 h)
            simp [List.filter_cons_of_neg hskip, ih hrest, hkey]

end FixedMultisig
