import Stencil.Bindings

namespace Stencil

/-- The text written for the text of a value. -/
abbrev OutputFunction := Text → Text

namespace OutputFunction

/-- Writes the text as it is. -/
def verbatim : OutputFunction :=
  id

def escapeHtmlChar : Char → Text
  | '&' => ['&', 'a', 'm', 'p', ';']
  | '<' => ['&', 'l', 't', ';']
  | '>' => ['&', 'g', 't', ';']
  | '"' => ['&', 'q', 'u', 'o', 't', ';']
  | '\'' => ['&', '#', '0', '3', '9', ';']
  | c => [c]

/-- Writes ampersands, angle brackets and quotes as entities. -/
def escapeHtml : OutputFunction :=
  fun t => t.flatMap escapeHtmlChar

end OutputFunction

/-- The output functions that can be called, by name. -/
abbrev Registry := Bindings OutputFunction

/-- The functions that every template begins with. -/
def builtins : Registry :=
  Bindings.ofList
    [("echo".toList, .verbatim), ("print".toList, .verbatim),
      ("escape_html".toList, .escapeHtml)]

end Stencil
