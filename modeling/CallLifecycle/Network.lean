/-
The network that a call's media go through, as the media engine reports it.
-/
import CallLifecycle.Vocabulary

namespace CallLifecycle

/-- The kind of network interface in use. -/
inductive NetworkAdapter
  | unknown
  | ethernet
  | wifi
  | cellular
  | vpn
  | loopback
  | anyAddress
  | cellular2G
  | cellular3G
  | cellular4G
  | cellular5G
  deriving DecidableEq

namespace NetworkAdapter

def all : List NetworkAdapter :=
  [unknown, ethernet, wifi, cellular, vpn, loopback, anyAddress, cellular2G, cellular3G,
    cellular4G, cellular5G]

def name : NetworkAdapter → String
  | unknown => "unknown"
  | ethernet => "ethernet"
  | wifi => "wifi"
  | cellular => "cellular"
  | vpn => "vpn"
  | loopback => "loopback"
  | anyAddress => "any_address"
  | cellular2G => "cellular2_g"
  | cellular3G => "cellular3_g"
  | cellular4G => "cellular4_g"
  | cellular5G => "cellular5_g"

def label : NetworkAdapter → String
  | unknown => "Unknown"
  | ethernet => "Ethernet"
  | wifi => "Wifi"
  | cellular => "Cellular"
  | vpn => "Vpn"
  | loopback => "Loopback"
  | anyAddress => "AnyAddress"
  | cellular2G => "Cellular2G"
  | cellular3G => "Cellular3G"
  | cellular4G => "Cellular4G"
  | cellular5G => "Cellular5G"

instance : Vocabulary NetworkAdapter where
  all := all
  name := name
  label := label
  find_name a := by cases a <;> decide

instance : Inhabited NetworkAdapter := ⟨unknown⟩

end NetworkAdapter

/-- The transport route last reported for a call. -/
structure Route where
  adapter : NetworkAdapter := default
  deriving DecidableEq, Inhabited

/-- A route as diagnostics show it. -/
def Route.summary (route : Route) : String :=
  "NetworkRoute \x7b local_adapter_type: " ++ route.adapter.label ++ " \x7d"

end CallLifecycle
