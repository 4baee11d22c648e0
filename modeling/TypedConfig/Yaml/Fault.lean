/-
# What can be wrong with a YAML text

Key definitions: `Mark`, `Fault`, `Fault.message`, `Malformed`.
-/

namespace TypedConfig
namespace Yaml

/-- A place in the text: how many characters come before it, its line counted from one, and
its column counted from nought. -/
structure Mark where
  index : Nat
  line : Nat
  column : Nat
deriving DecidableEq, Inhabited

/-- Where a text begins. -/
def Mark.start : Mark := ⟨0, 1, 0⟩

/-- The rules of YAML that a text can break. -/
inductive Fault where
  | contentAfterDocumentEnd
  | indentation
  | unexpectedCharacter (c : Char)
  | missingToken
  | staleKey
  | keyExpected
  | tabAsIndentation
  | missingWhitespace
  | commentNotSeparated
  | directiveContent
  | directiveVersionPoint
  | directiveName
  | directiveNameCharacter
  | directiveVersionLong
  | directiveVersionDigit
  | directiveTagEnd
  | tagEnd
  | tagMark
  | tagHandle
  | tagGlobalCharacter
  | tagVerbatimEnd
  | tagSuffix
  | tagEscape
  | tagLeadingByte
  | tagTrailingByte
  | tagCodePoint
  | anchorName
  | flowDepth
  | blockEntryInFlow
  | blockEntryHere
  | anchorIndentation
  | blockEntryTab
  | blockIndentationZero
  | blockHeader
  | blockTab
  | blockIndentation
  | quotedDocument
  | quotedEnd
  | quotedIndentation
  | quotedTab
  | quotedTrailing
  | escapeUnknown
  | escapeDigits
  | escapeCodePoint
  | flowIndentation
  | plainDash
  | plainTab
  | keyHere
  | keyTab
  | valueTab
  | valuePlacement
  | valueHere
  | documentStart
  | versionTwice
  | directiveNeedsDocumentEnd
  | unknownAnchor
  | nodeContent
  | mappingKey
  | flowMappingEnd
  | flowSequenceEnd
  | sequenceEntry
  | unknownHandle
deriving DecidableEq

/-- What is wrong, in one line. -/
def Fault.message : Fault → String
  | .contentAfterDocumentEnd => "invalid content after document end marker"
  | .indentation => "invalid indentation"
  | .unexpectedCharacter c => "unexpected character: `" ++ String.singleton c ++ "'"
  | .missingToken => "did not find expected next token"
  | .staleKey => "simple key expect ':'"
  | .keyExpected => "simple key expected"
  | .tabAsIndentation => "tabs disallowed within this context (block indentation)"
  | .missingWhitespace => "expected whitespace"
  | .commentNotSeparated => "comments must be separated from other tokens by whitespace"
  | .directiveContent =>
    "while scanning a directive, did not find expected comment or line break"
  | .directiveVersionPoint =>
    "while scanning a YAML directive, did not find expected digit or '.' character"
  | .directiveName => "while scanning a directive, could not find expected directive name"
  | .directiveNameCharacter =>
    "while scanning a directive, found unexpected non-alphabetical character"
  | .directiveVersionLong =>
    "while scanning a YAML directive, found extremely long version number"
  | .directiveVersionDigit =>
    "while scanning a YAML directive, did not find expected version number"
  | .directiveTagEnd => "while scanning TAG, did not find expected whitespace or line break"
  | .tagEnd => "while scanning a tag, did not find expected whitespace or line break"
  | .tagMark => "while scanning a tag, did not find expected '!'"
  | .tagHandle => "while parsing a tag directive, did not find expected '!'"
  | .tagGlobalCharacter => "invalid global tag character"
  | .tagVerbatimEnd => "while scanning a verbatim tag, did not find the expected '>'"
  | .tagSuffix => "while parsing a tag, did not find expected tag URI"
  | .tagEscape => "while parsing a tag, did not find URI escaped octet"
  | .tagLeadingByte => "while parsing a tag, found an incorrect leading UTF-8 octet"
  | .tagTrailingByte => "while parsing a tag, found an incorrect trailing UTF-8 octet"
  | .tagCodePoint => "while parsing a tag, found an invalid UTF-8 codepoint"
  | .anchorName =>
    "while scanning an anchor or alias, did not find expected alphabetic or numeric character"
  | .flowDepth => "recursion limit exceeded"
  | .blockEntryInFlow => "\"-\" is only valid inside a block"
  | .blockEntryHere => "block sequence entries are not allowed in this context"
  | .anchorIndentation => "invalid indentation for anchor"
  | .blockEntryTab => "'-' must be followed by a valid YAML whitespace"
  | .blockIndentationZero =>
    "while scanning a block scalar, found an indentation indicator equal to 0"
  | .blockHeader =>
    "while scanning a block scalar, did not find expected comment or line break"
  | .blockTab => "a block scalar content cannot start with a tab"
  | .blockIndentation => "wrongly indented line in block scalar"
  | .quotedDocument => "while scanning a quoted scalar, found unexpected document indicator"
  | .quotedEnd => "while scanning a quoted scalar, found unexpected end of stream"
  | .quotedIndentation => "invalid indentation in quoted scalar"
  | .quotedTab => "tab cannot be used as indentation"
  | .quotedTrailing => "invalid trailing content after double-quoted scalar"
  | .escapeUnknown => "while parsing a quoted scalar, found unknown escape character"
  | .escapeDigits =>
    "while parsing a quoted scalar, did not find expected hexadecimal number"
  | .escapeCodePoint =>
    "while parsing a quoted scalar, found invalid Unicode character escape code"
  | .flowIndentation => "invalid indentation in flow construct"
  | .plainDash => "plain scalar cannot start with '-' followed by ,[]\x7b\x7d"
  | .plainTab => "while scanning a plain scalar, found a tab"
  | .keyHere => "mapping keys are not allowed in this context"
  | .keyTab => "tabs disallowed in this context"
  | .valueTab => "':' must be followed by a valid YAML whitespace"
  | .valuePlacement => "illegal placement of ':' indicator"
  | .valueHere => "mapping values are not allowed in this context"
  | .documentStart => "did not find expected <document start>"
  | .versionTwice => "duplicate version directive"
  | .directiveNeedsDocumentEnd => "missing explicit document end marker before directive"
  | .unknownAnchor => "while parsing node, found unknown anchor"
  | .nodeContent => "while parsing a node, did not find expected node content"
  | .mappingKey => "while parsing a block mapping, did not find expected key"
  | .flowMappingEnd => "while parsing a flow mapping, did not find expected ',' or '\x7d'"
  | .flowSequenceEnd => "while parsing a flow sequence, expected ',' or ']'"
  | .sequenceEntry =>
    "while parsing a block collection, did not find expected '-' indicator"
  | .unknownHandle => "the handle wasn't declared"

/-- A fault and where it was found. -/
structure Malformed where
  fault : Fault
  mark : Mark
deriving DecidableEq

end Yaml
end TypedConfig
