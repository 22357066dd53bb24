import ContractInterface.Json.Fragment

/-!
# Decoding JSON

What can be wrong with the JSON of a description, and the decoders of strings, booleans, lists and
words that the decoders of entries and settings are made of.  A decoder walks a `Json.Fragment` from
front to back and stops at the first fault.
-/

namespace ContractInterface

/-- What a place in a description asks for. -/
inductive Expectation where
  | string
  | boolean
  | null
  | list
  /-- One of several words. -/
  | word
  | parameter
  /-- An input of an entry. -/
  | input
  | entry
  | settings
deriving DecidableEq, Repr

/-- A fault met in decoding. -/
inductive DecodeFault where
  /-- The text cannot be read on as JSON. -/
  | unreadable
  /-- A value is not what its place asks for. -/
  | unexpected (found : Json.Outline) (expected : Expectation)
  /-- An object that stands for a word has no member, or more than one. -/
  | notOneMember
  /-- An array form ends before an item that has to be there. -/
  | tooFewItems (expected : Expectation)
  /-- An array form goes on after its last item.  How many were wanted is told if the items had been
  read to their end before they were decoded. -/
  | tooManyItems (count : Nat) (wanted : Option Nat)
  | missingField (key : String)
  | duplicateField (key : String)
  | unknownWord (word : String) (known : List String)
  | unknownEntryType (type : String)
  | namelessEntry (type : String)
deriving DecidableEq, Repr

namespace DecodeFault

/-- A word between backticks. -/
def quoted (word : String) : String := "`" ++ word ++ "`"

/-- The words that would have been understood: two are joined by "or", more are listed. -/
def expectation : List String → String
  | [a, b] => quoted a ++ " or " ++ quoted b
  | words => "one of " ++ String.intercalate ", " (words.map quoted)

/-- The words for a fault.  What is wrong with the JSON as such has one word for all its causes. -/
def message : DecodeFault → String
  | .unreadable | .unexpected .. | .notOneMember | .tooFewItems _ | .tooManyItems .. => "malformed"
  | .missingField key => "missing field " ++ quoted key
  | .duplicateField key => "duplicate field " ++ quoted key
  | .unknownWord word known =>
    "unknown variant " ++ quoted word ++ ", expected " ++ expectation known
  | .unknownEntryType type =>
    "Entry type '" ++ type
      ++ "' is not one of function, event, constructor, fallback, receive or error"
  | .namelessEntry type => "A " ++ type ++ " entry must have a non-empty name"

end DecodeFault

/-- The outcome of decoding. -/
abbrev Decoded := Except DecodeFault

namespace Json

/-- Requires that a container be read to its end. -/
def Ending.require (ending : Ending) : Decoded Unit :=
  if ending.isReadable then .ok () else .error .unreadable

/-- The fault of an array form with more items than are wanted.  A text is given up at the first of
them, before they can be counted; `buffered` says that it had been read to its end already. -/
def Ending.surplus (ending : Ending) (buffered : Bool) (wanted count : Nat) : DecodeFault :=
  if buffered then .tooManyItems count (some wanted)
  else if ending = .counted then .tooManyItems count none
  else .unreadable

namespace Fragment

/-- The fault of a value that is not what its place asks for. -/
def unexpected (fragment : Fragment) (expected : Expectation) : DecodeFault :=
  match fragment.outline? with
  | some found => .unexpected found expected
  | none => .unreadable

/-- Passes over a value that means nothing. -/
def skip (fragment : Fragment) : Decoded Unit :=
  if fragment.isSkippable then .ok () else .error .unreadable

/-- Requires that a value can be read, whatever it is. -/
def requireReadable (fragment : Fragment) : Decoded Unit :=
  if fragment.value?.isSome then .ok () else .error .unreadable

/-- Decodes a string. -/
def decodeString : Fragment → Decoded String
  | .string s => .ok s
  | fragment => .error (fragment.unexpected .string)

/-- Decodes a boolean. -/
def decodeBool : Fragment → Decoded Bool
  | .bool b => .ok b
  | fragment => .error (fragment.unexpected .boolean)

/-- Requires that a value be null. -/
def requireNull : Fragment → Decoded Unit
  | .null => .ok ()
  | fragment => .error (fragment.unexpected .null)

/-- Decodes a value that may be null. -/
def decodeOptional (decode : Fragment → Decoded α) : Fragment → Decoded (Option α)
  | .null => .ok none
  | fragment => some <$> decode fragment

/-- Decodes a list. -/
def decodeList (decode : Fragment → Decoded α) : Fragment → Decoded (List α)
  | .array items ending => do
    let values ← items.mapM decode
    ending.require
    return values
  | fragment => .error (fragment.unexpected .list)

/-- Decodes one of several words: a string, or an object whose only member has the word as its key
and null as its value.  Where the number of members is known beforehand, it is looked at first. -/
def decodeWord (ofName? : String → Option α) (known : List String) : Fragment → Decoded α
  | .string word =>
    match ofName? word with
    | some a => .ok a
    | none => .error (.unknownWord word known)
  | .object [] ending => do
    ending.require
    .error .notOneMember
  | .object ((word, value) :: rest) ending =>
    if ending = .counted ∧ rest ≠ [] then .error .notOneMember
    else
      match ofName? word with
      | none => .error (.unknownWord word known)
      | some a => do
        value.requireNull
        if rest = [] then do
          ending.require
          return a
        else .error .notOneMember
  | fragment => .error (fragment.unexpected .word)

end Fragment

end Json

/-- Fills a slot for the value under a key, which may be filled once only. -/
def fillOnce (key : String) (slot : Option α) (value : Decoded α) : Decoded (Option α) :=
  match slot with
  | some _ => .error (.duplicateField key)
  | none => some <$> value

end ContractInterface
