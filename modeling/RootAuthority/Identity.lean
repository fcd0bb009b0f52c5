/-!
# The identity of a root certificate

What a freshly minted certificate says about its holder, with the defaults that apply when nothing
else is asked for.
-/

namespace RootAuthority

/-- The holder named in a certificate. -/
structure Identity where
  commonName : String
  organization : String
  /-- DNS names of the authority itself; they play no part in matching hosts. -/
  dnsNames : List String
deriving DecidableEq, Repr

namespace Identity

/-- The identity used when none is configured. -/
def default : Identity := ⟨"MITM CA", "mitm-ca", ["mitm-ca", "localhost"]⟩

end Identity

end RootAuthority
