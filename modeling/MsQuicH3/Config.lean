import MsQuicH3.Error

/-! The memory budgets of an adapter. A configuration is validated when it is
built, so its bounds are part of the value. -/
namespace MsQuicH3

/-- The default receive-byte budget of a stream, 1 MiB. -/
def maxRecvBuffer : Nat := 1024 * 1024

def defaultMaxRecvUnits : Nat := 16384

structure H3Config where
  maxSendBytes : Nat
  maxRecvBytes : Nat
  maxRecvUnits : Nat
  send_pos : 0 < maxSendBytes
  send_lt : maxSendBytes < UInt32.size - 1
  recvBytes_pos : 0 < maxRecvBytes
  recvUnits_pos : 0 < maxRecvUnits
  deriving DecidableEq, Repr

inductive ConfigError where
  | sendSize
  | recvBytes
  | recvUnits
  deriving DecidableEq, Repr

def validate (maxSendBytes maxRecvBytes maxRecvUnits : Nat) : Except ConfigError H3Config :=
  if hSend : maxSendBytes = 0 ∨ maxSendBytes ≥ UInt32.size - 1 then .error .sendSize
  else if hBytes : maxRecvBytes = 0 then .error .recvBytes
  else if hUnits : maxRecvUnits = 0 then .error .recvUnits
  else .ok
    { maxSendBytes, maxRecvBytes, maxRecvUnits
      send_pos := by omega
      send_lt := by omega
      recvBytes_pos := by omega
      recvUnits_pos := by omega }

namespace H3Config

def default : H3Config where
  maxSendBytes := maxAdapterSend
  maxRecvBytes := maxRecvBuffer
  maxRecvUnits := defaultMaxRecvUnits
  send_pos := by decide
  send_lt := by decide
  recvBytes_pos := by decide
  recvUnits_pos := by decide

def tryNew (maxSendBytes maxRecvBytes maxRecvUnits : Nat) : Except ConfigError H3Config :=
  validate maxSendBytes maxRecvBytes maxRecvUnits

end H3Config

structure H3ConfigBuilder where
  maxSendBytes : Nat := H3Config.default.maxSendBytes
  maxRecvBytes : Nat := H3Config.default.maxRecvBytes
  maxRecvUnits : Nat := H3Config.default.maxRecvUnits

namespace H3ConfigBuilder

def withMaxSendBytes (builder : H3ConfigBuilder) (maxSendBytes : Nat) : H3ConfigBuilder :=
  { builder with maxSendBytes }

def withMaxRecvBytes (builder : H3ConfigBuilder) (maxRecvBytes : Nat) : H3ConfigBuilder :=
  { builder with maxRecvBytes }

def withMaxRecvUnits (builder : H3ConfigBuilder) (maxRecvUnits : Nat) : H3ConfigBuilder :=
  { builder with maxRecvUnits }

def build (builder : H3ConfigBuilder) : Except ConfigError H3Config :=
  validate builder.maxSendBytes builder.maxRecvBytes builder.maxRecvUnits

end H3ConfigBuilder

/-- Validation accepts exactly the values a configuration can carry, unchanged. -/
theorem validate_eq_ok_iff (sendBytes recvBytes recvUnits : Nat) (config : H3Config) :
    validate sendBytes recvBytes recvUnits = .ok config ↔
      config.maxSendBytes = sendBytes ∧ config.maxRecvBytes = recvBytes ∧
        config.maxRecvUnits = recvUnits := by
  constructor
  · intro h
    unfold validate at h
    split_ifs at h
    cases h
    exact ⟨rfl, rfl, rfl⟩
  · rintro ⟨rfl, rfl, rfl⟩
    have hSend := config.send_pos
    have hLt := config.send_lt
    have hBytes := config.recvBytes_pos
    have hUnits := config.recvUnits_pos
    unfold validate
    rw [dif_neg (by omega), dif_neg (by omega), dif_neg (by omega)]

end MsQuicH3
