import FixedMultisig.Contract.DecimalText
import FixedMultisig.Contract.Store

/-!
# Stored records

How a configuration and a proposal are turned into bytes and back.  The derived
serializers hand every field to the JSON library, a decimal as its text; the
library itself is outside the contract.  All that is needed of it is that a
record arrives with the texts of its threshold as they were sent.
-/

namespace FixedMultisig

/-- A threshold as it stands in JSON, with its decimals as texts. -/
inductive ThresholdJson where
  | absoluteCount (weight : U64)
  | absolutePercentage (percentage : String)
  | thresholdQuorum (threshold quorum : String)
  deriving DecidableEq

structure ConfigJson where
  threshold : ThresholdJson
  totalWeight : U64
  maxVotingPeriod : Duration
  deriving DecidableEq

structure ProposalJson (M : Type) where
  title : String
  description : String
  startHeight : U64
  expires : Expiration
  msgs : List M
  status : Status
  threshold : ThresholdJson
  totalWeight : U64
  votes : Votes
  deriving DecidableEq

def Threshold.serialize : Threshold → ThresholdJson
  | absoluteCount weight => .absoluteCount weight
  | absolutePercentage percentage => .absolutePercentage percentage.serialize
  | thresholdQuorum threshold quorum =>
      .thresholdQuorum threshold.serialize quorum.serialize

def Config.serialize (config : Config) : ConfigJson where
  threshold := config.threshold.serialize
  totalWeight := config.totalWeight
  maxVotingPeriod := config.maxVotingPeriod

def Proposal.serialize {M : Type} (prop : Proposal M) : ProposalJson M where
  title := prop.title
  description := prop.description
  startHeight := prop.startHeight
  expires := prop.expires
  msgs := prop.msgs
  status := prop.status
  threshold := prop.threshold.serialize
  totalWeight := prop.totalWeight
  votes := prop.votes

section Deserialize

variable (display : StdError → String) {M : Type}

def ThresholdJson.deserialize :
    ThresholdJson → Except (Halt String) Threshold
  | absoluteCount weight => return .absoluteCount weight
  | absolutePercentage percentage =>
      return .absolutePercentage (← Decimal.visitStr display percentage)
  | thresholdQuorum threshold quorum =>
      return .thresholdQuorum (← Decimal.visitStr display threshold)
        (← Decimal.visitStr display quorum)

def ConfigJson.deserialize (form : ConfigJson) :
    Except (Halt String) Config :=
  return {
    threshold := ← form.threshold.deserialize display
    totalWeight := form.totalWeight
    maxVotingPeriod := form.maxVotingPeriod }

def ProposalJson.deserialize (form : ProposalJson M) :
    Except (Halt String) (Proposal M) :=
  return {
    title := form.title
    description := form.description
    startHeight := form.startHeight
    expires := form.expires
    msgs := form.msgs
    status := form.status
    threshold := ← form.threshold.deserialize display
    totalWeight := form.totalWeight
    votes := form.votes }

end Deserialize

/-- The JSON library, for records of one form. -/
structure JsonLayer (Form : Type) where
  toVec : Form → List UInt8
  fromSlice : List UInt8 → Except (Halt String) Form

namespace JsonLayer

variable {Form Record : Type}

def save (layer : JsonLayer Form) (serialize : Record → Form)
    (record : Record) : List UInt8 :=
  layer.toVec (serialize record)

def load (layer : JsonLayer Form)
    (deserialize : Form → Except (Halt String) Record)
    (bytes : List UInt8) : Except (Halt String) Record := do
  deserialize (← layer.fromSlice bytes)

/-- A record that is sent arrives with the same threshold. -/
def Carries (layer : JsonLayer Form) (threshold : Form → ThresholdJson)
    (form : Form) : Prop :=
  ∃ received, layer.fromSlice (layer.toVec form) = .ok received ∧
    threshold received = threshold form

end JsonLayer

/-! ## Reading undoes writing -/

section ReadBack

variable (display : StdError → String) {M : Type}

theorem deserialize_serialize (threshold : Threshold) :
    threshold.serialize.deserialize display = .ok threshold := by
  cases threshold with
  | absoluteCount weight => rfl
  | absolutePercentage percentage =>
      rw [Threshold.serialize, ThresholdJson.deserialize,
        Decimal.visitStr_serialize]
      rfl
  | thresholdQuorum threshold quorum =>
      rw [Threshold.serialize, ThresholdJson.deserialize,
        Decimal.visitStr_serialize, Decimal.visitStr_serialize]
      rfl

/-- A record whose threshold arrives is loaded with that threshold. -/
theorem JsonLayer.load_save {Form Record : Type} {layer : JsonLayer Form}
    {serialize : Record → Form}
    {deserialize : Form → Except (Halt String) Record}
    {threshold : Form → ThresholdJson} {threshold' : Record → Threshold}
    {record : Record} (hcarries : layer.Carries threshold (serialize record))
    (hread : ∀ received, threshold received = threshold (serialize record) →
      ∃ record', deserialize received = .ok record' ∧
        threshold' record' = threshold' record) :
    ∃ record', layer.load deserialize (layer.save serialize record) =
        .ok record' ∧ threshold' record' = threshold' record := by
  obtain ⟨received, hreceived, hthreshold⟩ := hcarries
  rw [load, save, hreceived]
  exact hread received hthreshold

theorem load_config {configs : JsonLayer ConfigJson} {config : Config}
    (hcarries : configs.Carries ConfigJson.threshold config.serialize) :
    ∃ config', configs.load (ConfigJson.deserialize display)
        (configs.save Config.serialize config) = .ok config' ∧
      config'.threshold = config.threshold := by
  apply JsonLayer.load_save hcarries
  intro received hthreshold
  have hread : received.threshold.deserialize display = .ok config.threshold :=
    hthreshold ▸ deserialize_serialize display config.threshold
  rw [ConfigJson.deserialize, hread]
  exact ⟨_, rfl, rfl⟩

theorem load_proposal {proposals : JsonLayer (ProposalJson M)}
    {prop : Proposal M}
    (hcarries : proposals.Carries ProposalJson.threshold prop.serialize) :
    ∃ prop', proposals.load (ProposalJson.deserialize display)
        (proposals.save Proposal.serialize prop) = .ok prop' ∧
      prop'.threshold = prop.threshold := by
  apply JsonLayer.load_save hcarries
  intro received hthreshold
  have hread : received.threshold.deserialize display = .ok prop.threshold :=
    hthreshold ▸ deserialize_serialize display prop.threshold
  rw [ProposalJson.deserialize, hread]
  exact ⟨_, rfl, rfl⟩

end ReadBack

end FixedMultisig
