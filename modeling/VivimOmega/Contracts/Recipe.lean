import VivimOmega.Contracts.Port

/-! The composition: the only grantor. -/

namespace VivimOmega.Contracts

structure Grant where
  capabilities : List String
  contracts : List String

structure CompositionEntry where
  id : String
  source : String
  manifestPath : String
  manifestHash : String
  contentHash : String
  grant : Grant
  bootPhase : ℕ
  config : Option JsValue := none

structure RootOfTrust where
  keyId : String
  publicKey : String
  deriving DecidableEq

end VivimOmega.Contracts
