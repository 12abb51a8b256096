import TokenStream.Numeral
import TokenStream.Text.Quoted

/-!
# Errors of the operating system

What an operation on a file or a stream reports when it fails: an error number,
its text, and the path it was about. A report may lack the path, or the number
and the path.
-/

namespace TokenStream

inductive SystemError where
  | bare (text : String)
  | coded (number : Int) (text : String)
  | onPath (number : Int) (text : String) (path : String)
deriving DecidableEq, Repr

namespace SystemError

/-- The error number, if there is one. -/
def number? : SystemError → Option Int
  | bare _ => none
  | coded number _ => some number
  | onPath number _ _ => some number

def message : SystemError → String
  | bare text => text
  | coded number text => "[Errno " ++ .ofList (Numeral.decimal number) ++ "] " ++ text
  | onPath number text path =>
    "[Errno " ++ .ofList (Numeral.decimal number) ++ "] " ++ text ++ ": " ++ quoted path

end SystemError

end TokenStream
