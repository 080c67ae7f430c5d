import FixedMultisig.Contract.Serialization
import FixedMultisig.Contract.StorageKeys

/-!
# Decimals are read back

The text of a decimal is the shortest one that denotes it, and reading it gives
the same decimal, for all values up to the greatest.  Decimals are stored as
their texts, so whoever loads a configuration or a proposal finds the threshold
that was saved.
-/

namespace FixedMultisig

open Numeral

/-- The printed text is the only shortest numeral of its number, without a
superfluous zero, and is read as the decimal that printed it.  Hence a
configuration or a proposal is loaded with the threshold that it was saved
with, if the JSON library carries the texts. -/
theorem decimal_read_back {M : Type} (display : StdError → String)
    (configs : JsonLayer ConfigJson) (proposals : JsonLayer (ProposalJson M)) :
    (∀ decimal : Decimal,
      Decimal.fromStr decimal.toString = .ok decimal ∧
      Denotes 18 decimal.toString.toList (decimal.atomics.toNat / 10 ^ 18) ∧
      Canonical decimal.toString.toList (decimal.atomics.toNat / 10 ^ 18) ∧
      ∀ places text,
        Denotes places text (decimal.atomics.toNat / 10 ^ 18) →
          text = decimal.toString.toList ∨
            decimal.toString.toList.length < text.length) ∧
    (∀ config : Config,
      configs.Carries ConfigJson.threshold config.serialize →
        ∃ config', configs.load (ConfigJson.deserialize display)
            (configs.save Config.serialize config) = .ok config' ∧
          config'.threshold = config.threshold) ∧
    ∀ prop : Proposal M,
      proposals.Carries ProposalJson.threshold prop.serialize →
        ∃ prop', proposals.load (ProposalJson.deserialize display)
            (proposals.save Proposal.serialize prop) = .ok prop' ∧
          prop'.threshold = prop.threshold := by
  refine ⟨fun decimal => ?_, fun config hcarries => ?_,
    fun prop hcarries => ?_⟩
  · have hcanonical := Decimal.canonical_toString decimal
    refine ⟨Decimal.fromStr_toString decimal, Decimal.denotes_toString decimal,
      hcanonical, ?_⟩
    intro places text hdenotes
    exact hcanonical.shortest hdenotes
  · exact load_config display hcarries
  · exact load_proposal display hcarries

section Example

/-- A JSON library, as far as one record and its bytes are concerned. -/
private def recorded {Form : Type} [DecidableEq Form] (form : Form)
    (bytes : List UInt8) : JsonLayer Form where
  toVec sent := if sent = form then bytes else []
  fromSlice received :=
    if received = bytes then .ok form
    else .error (.error "Error parsing JSON")

private theorem recorded_carries {Form : Type} [DecidableEq Form]
    (threshold : Form → ThresholdJson) (form : Form) (bytes : List UInt8) :
    (recorded form bytes).Carries threshold form := by
  refine ⟨form, ?_, rfl⟩
  simp [recorded]

private def quorate : Threshold :=
  .thresholdQuorum (.percent 51) (.percent 40)

private def quorateConfig : Config where
  threshold := quorate
  totalWeight := 15
  maxVotingPeriod := .height 10

private def quorateProposal : Proposal String where
  title := "Pay"
  description := "Rent"
  startHeight := 20
  expires := .atHeight 30
  msgs := []
  status := .open
  threshold := quorate
  totalWeight := 15
  votes := ⟨1, 0, 0, 0⟩

private def quorateConfigBytes : List UInt8 :=
  asBytes ("\x7b\"threshold\":\x7b\"threshold_quorum\":" ++
    "\x7b\"threshold\":\"0.51\",\"quorum\":\"0.4\"\x7d\x7d," ++
    "\"total_weight\":15,\"max_voting_period\":\x7b\"height\":10\x7d\x7d")

private def quorateProposalBytes : List UInt8 :=
  asBytes ("\x7b\"title\":\"Pay\",\"description\":\"Rent\"," ++
    "\"start_height\":20,\"expires\":\x7b\"at_height\":30\x7d," ++
    "\"msgs\":[],\"status\":\"open\",\"threshold\":" ++
    "\x7b\"threshold_quorum\":" ++
    "\x7b\"threshold\":\"0.51\",\"quorum\":\"0.4\"\x7d\x7d," ++
    "\"total_weight\":15," ++
    "\"votes\":\x7b\"yes\":1,\"no\":0,\"abstain\":0,\"veto\":0\x7d\x7d")

/-- A majority of 51 percent with a quorum of 40, saved and loaded. -/
theorem decimal_read_back_quorate :
    (∃ config', (recorded quorateConfig.serialize quorateConfigBytes).load
        (ConfigJson.deserialize fun _ => "")
        ((recorded quorateConfig.serialize quorateConfigBytes).save
          Config.serialize quorateConfig) = .ok config' ∧
      config'.threshold = quorate) ∧
    ∃ prop', (recorded quorateProposal.serialize quorateProposalBytes).load
        (ProposalJson.deserialize fun _ => "")
        ((recorded quorateProposal.serialize quorateProposalBytes).save
          Proposal.serialize quorateProposal) = .ok prop' ∧
      prop'.threshold = quorate :=
  ⟨(decimal_read_back (fun _ => "")
      (recorded quorateConfig.serialize quorateConfigBytes)
      (recorded quorateProposal.serialize quorateProposalBytes)).2.1
      quorateConfig (recorded_carries _ _ _),
    (decimal_read_back (fun _ => "")
      (recorded quorateConfig.serialize quorateConfigBytes)
      (recorded quorateProposal.serialize quorateProposalBytes)).2.2
      quorateProposal (recorded_carries _ _ _)⟩

example : (⟨1⟩ : Decimal).toString = "0.000000000000000001" := by
  decide +kernel

end Example

/-! ## In the storage of the chain -/

section Stored

variable {M : Type} {display : StdError → String}
variable {configs : JsonLayer ConfigJson} {proposals : JsonLayer (ProposalJson M)}
variable {key : Item String → List UInt8}
variable {encode : (item : Item String) → item.Value M → List UInt8}
variable {raw : List UInt8 → Option (List UInt8)} {store : Store M}

/-- Whoever reads the configuration from the flat storage finds the threshold
of the typed one. -/
theorem stored_config_read_back
    (hrepresents : storeSlots.Represents key encode raw store)
    (hencode : ∀ config : Config,
      encode .config config = configs.save Config.serialize config)
    {config : Config} (hconfig : store.config = some config)
    (hcarries : configs.Carries ConfigJson.threshold config.serialize) :
    ∃ bytes config', raw (key .config) = some bytes ∧
      configs.load (ConfigJson.deserialize display) bytes = .ok config' ∧
      config'.threshold = config.threshold := by
  obtain ⟨config', hload, hthreshold⟩ := load_config display hcarries
  refine ⟨_, config', ?_, hload, hthreshold⟩
  rw [← hencode config]
  exact (hrepresents .config).trans (congrArg (Option.map _) hconfig)

theorem stored_proposal_read_back
    (hrepresents : storeSlots.Represents key encode raw store)
    (hencode : ∀ id (prop : Proposal M),
      encode (.proposal id) prop = proposals.save Proposal.serialize prop)
    {id : U64} {prop : Proposal M} (hprop : store.proposals id = some prop)
    (hcarries : proposals.Carries ProposalJson.threshold prop.serialize) :
    ∃ bytes prop', raw (key (.proposal id)) = some bytes ∧
      proposals.load (ProposalJson.deserialize display) bytes = .ok prop' ∧
      prop'.threshold = prop.threshold := by
  obtain ⟨prop', hload, hthreshold⟩ := load_proposal display hcarries
  refine ⟨_, prop', ?_, hload, hthreshold⟩
  rw [← hencode id prop]
  exact (hrepresents (.proposal id)).trans (congrArg (Option.map _) hprop)

end Stored

end FixedMultisig
