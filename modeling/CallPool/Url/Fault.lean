/-!
# What can be wrong with a URL
-/

set_option autoImplicit false

namespace CallPool.Url

/-- Why a text is no URL. -/
inductive Fault
  | emptyHost
  | portInvalid
  | ipv4Invalid
  | ipv6Invalid
  | domainCharacterInvalid
  | domainNameInvalid
  | relative
  deriving DecidableEq

/-- The words for a fault. -/
def Fault.message : Fault → String
  | emptyHost => "empty host"
  | portInvalid => "invalid port number"
  | ipv4Invalid => "invalid IPv4 address"
  | ipv6Invalid => "invalid IPv6 address"
  | domainCharacterInvalid => "invalid domain character"
  | domainNameInvalid => "invalid international domain name"
  | relative => "relative URL without a base"

end CallPool.Url
