/-
Who a call is with.

A contact is a conversation with one remote party.  The party may be known by a
service identifier, by a telephone number, by both or by neither, and the text of
an address shows what is known.
-/
import CallLifecycle.Identifier

namespace CallLifecycle

/-- Where the remote party is reached. -/
structure Address where
  serviceId : Option Identifier
  phoneNumber : Option String
  deriving DecidableEq

/-- Shows what is known of an address, the service identifier first. -/
def Address.text : Address → String
  | ⟨some id, some phone⟩ => "<" ++ id.text ++ ", " ++ phone ++ ">"
  | ⟨some id, none⟩ => "<" ++ id.text ++ ">"
  | ⟨none, some phone⟩ => "<" ++ phone ++ ">"
  | ⟨none, none⟩ => "<unknown>"

/-- A conversation with one remote party. -/
structure Contact where
  threadId : String
  address : Address
  deriving DecidableEq

/-- A contact of whom nothing is known. -/
def Contact.unknown : Contact :=
  ⟨"", none, none⟩

end CallLifecycle
