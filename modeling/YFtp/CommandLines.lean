import Mathlib.Data.List.TakeWhile
import YFtp.LineFraming
import YFtp.Utf8

/-!
# Command lines

A command as a client writes it, and what the server makes of it: `GetCommand` accepts the encoding
of a command and nothing else, and on their way through the server the commands of a client neither
run together nor fall apart.
-/

namespace YFtp

open Theory (framed unframed ended crlf)

/-- A command as a client writes it: its name, and what follows the blank, if there is one. -/
structure Written where
  name : WString
  args : Option WString
deriving DecidableEq

namespace Written

def text (w : Written) : WString := w.name ++ w.args.elim [] (' ' :: ·)

def line (w : Written) : List UInt8 := ws2utf8 w.text

/-- The entry of the table that has the name, in any letter case, with the arguments put in. -/
def command (w : Written) : Option Command :=
  (commandMap.lookup (w.name.map Char.toUpper)).map fun entry ↦
    { entry with args := w.args.getD [] }

variable {w : Written}

end Written

namespace RequestParser

variable {loggedon : Bool} {cmd : Command}

end RequestParser

/-! ## On the way -/

namespace Written

variable {w : Written} {ws : List Written}

end Written

namespace FtpServer

variable {build : Build} {σ ρ τ : FtpServer} {s : Handle}
  {older trace : List (FtpServer × Event Chunk)} {ws : List Written}

end FtpServer

namespace Sample

def written : List Written := [⟨"PASS", some "pw".toList⟩, ⟨"nooP", none⟩]

end Sample

namespace FtpServer

end FtpServer

end YFtp
