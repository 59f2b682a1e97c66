import CallPool.Json.Record
import CallPool.Json.Writing

/-!
# Policies

A policy says how the use of one endpoint of an application is limited and metered. A reply lists
policies; `PolicyResponse.find` gives the first that applies to a method and a pattern.
-/

set_option autoImplicit false

namespace CallPool

open Json (Reader Record Field Doc)

/-- A policy. -/
structure Policy where
  policyId : String
  accountId : String
  applicationId : String
  endpointPattern : String
  endpointMethod : String
  identityField : String
  identityLocation : String
  rateLimit : Int64
  rateLimitInterval : String
  meteringExpression : String
  meteringTrigger : String
  stripePriceId : String
  stripeCustomerId : String
  createdAt : Int64
  updatedAt : Int64
  deriving DecidableEq

namespace Policy

/-- The policy of which nothing is given. -/
def blank : Policy := ⟨"", "", "", "", "", "", "", 0, "", "", "", "", "", 0, 0⟩

/-- How a policy is read: every field may be absent. -/
def record : Record Policy where
  name := "Policy"
  fields := [
    Field.of "policyId" false Reader.text fun x a => { a with policyId := x },
    Field.of "accountId" false Reader.text fun x a => { a with accountId := x },
    Field.of "applicationId" false Reader.text fun x a => { a with applicationId := x },
    Field.of "endpointPattern" false Reader.text fun x a => { a with endpointPattern := x },
    Field.of "endpointMethod" false Reader.text fun x a => { a with endpointMethod := x },
    Field.of "identityField" false Reader.text fun x a => { a with identityField := x },
    Field.of "identityLocation" false Reader.text fun x a => { a with identityLocation := x },
    Field.of "rateLimit" false Reader.signed fun x a => { a with rateLimit := x },
    Field.of "rateLimitInterval" false Reader.text fun x a => { a with rateLimitInterval := x },
    Field.of "meteringExpression" false Reader.text fun x a => { a with meteringExpression := x },
    Field.of "meteringTrigger" false Reader.text fun x a => { a with meteringTrigger := x },
    Field.of "stripePriceId" false Reader.text fun x a => { a with stripePriceId := x },
    Field.of "stripeCustomerId" false Reader.text fun x a => { a with stripeCustomerId := x },
    Field.of "createdAt" false Reader.signed fun x a => { a with createdAt := x },
    Field.of "updatedAt" false Reader.signed fun x a => { a with updatedAt := x }]
  blank := blank

/-- An integer with a sign as a document. -/
def signedDoc (i : Int64) : Doc := Doc.ofNumber (Json.Number.ofInt64 i)

/-- What a policy is written as. -/
def doc (p : Policy) : Doc :=
  Doc.ofMembers [
    ("policyId", Doc.ofString p.policyId),
    ("accountId", Doc.ofString p.accountId),
    ("applicationId", Doc.ofString p.applicationId),
    ("endpointPattern", Doc.ofString p.endpointPattern),
    ("endpointMethod", Doc.ofString p.endpointMethod),
    ("identityField", Doc.ofString p.identityField),
    ("identityLocation", Doc.ofString p.identityLocation),
    ("rateLimit", signedDoc p.rateLimit),
    ("rateLimitInterval", Doc.ofString p.rateLimitInterval),
    ("meteringExpression", Doc.ofString p.meteringExpression),
    ("meteringTrigger", Doc.ofString p.meteringTrigger),
    ("stripePriceId", Doc.ofString p.stripePriceId),
    ("stripeCustomerId", Doc.ofString p.stripeCustomerId),
    ("createdAt", signedDoc p.createdAt),
    ("updatedAt", signedDoc p.updatedAt)]

/-- Whether two texts are equal but for the case of ASCII letters. -/
def sameIgnoringCase (a b : String) : Bool :=
  a.toList.map Char.toLower == b.toList.map Char.toLower

/-- Whether a policy applies to a method and a pattern: the pattern is the very same, and the method
is, but for the case of ASCII letters, or the policy is for all methods. -/
def applies (p : Policy) (method pattern : String) : Bool :=
  p.endpointPattern == pattern &&
    (p.endpointMethod == "*" || sameIgnoringCase p.endpointMethod method)

end Policy

/-- The reply to a request for the policies of an application. -/
structure PolicyResponse where
  policies : List Policy
  total : UInt64
  deriving DecidableEq

namespace PolicyResponse

/-- How a list of policies is read. -/
def record : Record PolicyResponse where
  name := "PolicyResponse"
  fields := [
    Field.of "policies" false (Reader.list Policy.record.reader)
      fun x a => { a with policies := x },
    Field.of "total" false Reader.unsigned fun x a => { a with total := x }]
  blank := ⟨[], 0⟩

/-- What a list of policies is written as. -/
def doc (r : PolicyResponse) : Doc :=
  Doc.ofMembers [
    ("policies", Doc.ofItems (r.policies.map Policy.doc)),
    ("total", Doc.ofNumber (.natural r.total))]

/-- The first policy that applies to a method and a pattern. -/
def find (r : PolicyResponse) (method pattern : String) : Option Policy :=
  r.policies.find? fun p => p.applies method pattern

end PolicyResponse

end CallPool
