import KeyManagement.Bytes
import KeyManagement.Text.Decimal

/-! # Key material

The bytes that an engine made for one version. Only their number is ever shown.
-/

namespace KeyManagement

structure KeyMaterial where
  bytes : Bytes
  deriving DecidableEq

namespace KeyMaterial

def describe (m : KeyMaterial) : String :=
  "KeyMaterial(" ++ Decimal.render m.bytes.length ++ " bytes)"

instance : Repr KeyMaterial := ⟨fun m _ => m.describe⟩

end KeyMaterial

end KeyManagement
