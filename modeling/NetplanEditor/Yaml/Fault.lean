/-!
Why a text cannot be read.

The first group of causes is about the characters and their arrangement, the second about the
grammar, the third about values that are not what is wanted in their place. The last two causes
carry a text of the document and say what would have been accepted.
-/

namespace NetplanEditor.Yaml

/-- Why a text cannot be read as a value, or a value not as what is wanted. -/
inductive Fault
  | unreadableCharacter
  /-- A tab stands where spaces have to make an indentation. -/
  | tabInIndentation
  | unexpectedCharacter
  /-- What has to be a key has no colon in its line. -/
  | keyWithoutColon
  /-- An item, a key or a value starts where none may start. -/
  | misplacedEntry
  /-- A colon in a flow collection is followed by what it cannot be followed by. -/
  | misplacedColon
  | malformedDirective
  | malformedTag
  | malformedAnchor
  | malformedBlockHeader
  /-- The text or the document ends within quotes. -/
  | unclosedQuote
  | malformedEscape
  | unexpectedToken
  /-- A directive is given twice, or asks for an unknown version. -/
  | refusedDirective
  /-- A tag uses a handle that no directive declares. -/
  | undeclaredHandle
  | unknownAnchor
  /-- Something stands after the end of the document. -/
  | secondDocument
  | tooDeep
  | tooManyAliases
  /-- The value is not of the kind that is wanted. -/
  | wrongKind (wanted : String)
  /-- A tag of the document's own stands where only the language's own tags have a meaning. -/
  | localTag
  /-- A scalar does not have the form that its tag asks for. -/
  | tagMismatch
  /-- An integer fits in 128 bits, but not in 64. -/
  | wideInteger
  | repeatedKey
  | missingKey (key : String)
  /-- A flag is a text that means neither true nor false. -/
  | invalidFlag (text : String)
  /-- A metric is a text that is no number. -/
  | invalidMetric (text : String)
  deriving DecidableEq, Repr

def Fault.message : Fault → String
  | unreadableCharacter => "control characters are not allowed"
  | tabInIndentation => "a tab stands where spaces are needed"
  | unexpectedCharacter => "nothing can start with this character"
  | keyWithoutColon => "a key has no colon"
  | misplacedEntry => "an entry is not allowed here"
  | misplacedColon => "a colon is not allowed here"
  | malformedDirective => "malformed directive"
  | malformedTag => "malformed tag"
  | malformedAnchor => "malformed anchor or alias"
  | malformedBlockHeader => "malformed header of a block scalar"
  | unclosedQuote => "a quote is not closed"
  | malformedEscape => "unknown or malformed escape"
  | unexpectedToken => "the structure is not well-formed here"
  | refusedDirective => "repeated directive or unknown version"
  | undeclaredHandle => "a tag handle is not declared"
  | unknownAnchor => "unknown anchor"
  | secondDocument => "more than one document"
  | tooDeep => "nested too deeply"
  | tooManyAliases => "too many repetitions"
  | wrongKind wanted => s!"expected {wanted}"
  | localTag => "a local tag is not allowed here"
  | tagMismatch => "the value does not fit its tag"
  | wideInteger => "an integer is too large"
  | repeatedKey => "a key is given twice"
  | missingKey key => s!"the key '{key}' is missing"
  | invalidFlag text => s!"'{text}' is not a boolean (expected true/false or yes/no)"
  | invalidMetric text => s!"metric '{text}' is not a number"

end NetplanEditor.Yaml
