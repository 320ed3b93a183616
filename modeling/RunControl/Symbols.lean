import RunControl.Error
import RunControl.Json.Decoder

namespace RunControl

abbrev SymbolTable := Table Address String

namespace SymbolTable

def insertKeys (t : SymbolTable) : List (String × String) → Except Error SymbolTable
  | [] => .ok t
  | (key, name) :: rest =>
      match Address.readKey key with
      | .error e => .error (.addressKey key e)
      | .ok a => insertKeys (t.insert a name) rest

def ofKeys (raw : Table String String) : Except Error SymbolTable :=
  insertKeys .empty raw.entries

def decode (text : String) : Except Error SymbolTable :=
  match Json.decodeText (.table .string) text with
  | .error e => .error (.payload "import table" e)
  | .ok raw => ofKeys raw

end SymbolTable

end RunControl
