import Treewalk.Table
import Treewalk.Text

/-! Tags in their short form, and the handles that abbreviate them. -/
namespace Treewalk.Yaml

abbrev Tag := Text

namespace Tag

def str : Tag := "!!str"

def bool : Tag := "!!bool"

def int : Tag := "!!int"

def float : Tag := "!!float"

def null : Tag := "!!null"

def timestamp : Tag := "!!timestamp"

def binary : Tag := "!!binary"

def merge : Tag := "!!merge"

def seq : Tag := "!!seq"

def map : Tag := "!!map"

def standard : Text := "tag:yaml.org,2002:"

def short (full : Text) : Tag :=
  if standard.isPrefixOf full then Text.ofString "!!" ++ full.drop standard.length else full

/-- Tags whose values are looked at; text under any other tag stays as it is. -/
def isResolvable (t : Tag) : Bool :=
  [str, bool, int, float, null, timestamp].contains t

end Tag

abbrev Handles := Table Text Text

def defaultHandles : Handles := [("!", "!"), ("!!", Tag.standard)]

end Treewalk.Yaml
