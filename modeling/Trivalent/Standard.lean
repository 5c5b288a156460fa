import Trivalent.Registry

/-!
# The standard registry

The basic types, their collection types, and the builtin functions.
-/

namespace Trivalent

namespace Standard

def integer  : DataType := .basic "INTEGER" (some .numeric) (some .numeric)
def numeric  : DataType := .basic "NUMERIC" (some .numeric) (some .numeric)
def string   : DataType := .basic "STRING" (some .string) (some .string)
def boolean  : DataType := .basic "BOOLEAN" (some .boolean) none
def time     : DataType := .basic "TIME" (some .time) (some .time)
def interval : DataType := .basic "INTERVAL" (some .time) (some .time)

def basics : List DataType :=
  [integer, numeric, string, boolean, time, interval]

def parameter (name : String) (type : DataType) : Parameter :=
  ⟨name, 0, type, none⟩

def length : Function :=
  .declare "LENGTH" [parameter "string" string] none (some integer) (some .length) none

-- The third argument may be left off.
def locate : Function :=
  .declare "LOCATE"
    [parameter "substring" string, parameter "string" string, parameter "start" integer] (some 2)
    (some integer) (some .locate) none

def random : Function :=
  .declare "RANDOM" [] none (some numeric) (some .random) none

def functions : List Function :=
  [length, locate, random]

def collections : List DataType :=
  basics.map (.collection · none none)

end Standard

def Registry.standard : Registry :=
  ⟨Dictionary.ofList ((Standard.basics ++ Standard.collections).map fun t => (t.name, t)),
   Dictionary.ofList (Standard.functions.map fun f => (f.name, f))⟩

end Trivalent
