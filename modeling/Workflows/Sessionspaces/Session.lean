import Mathlib.Data.Finset.Sort
import Mathlib

/-!
# Sessions and the objects rendered from them

The data of `permissionables/mod.rs`, the instruments, and the Kubernetes objects that
`create_configmap` and `create_namespace` apply. Text produced by the `time` and `serde_json`
crates is a parameter.
-/

namespace Workflows.Sessionspaces

inductive Instrument where
  | b01 | b01_1 | b07 | b07_1 | b16 | b18 | b21 | b22 | b23 | b24 | b24_1 | e01 | e02 | e03
  | i02_1 | i02_2 | i03 | i04 | i04_1 | i05 | i05_1 | i06 | i06_1 | i06_2 | i07 | i08 | i08_1
  | i09 | i09_1 | i09_2 | i10 | i10_1 | i11 | i11_1 | i12 | i13 | i13_1 | i14 | i15 | i15_1
  | i16 | i18 | i19 | i19_1 | i19_2 | i20 | i20_1 | i21 | i22 | i23 | i24 | k11 | labxchem
  | m01 | m02 | m03 | m04 | m05 | m06 | m07 | m08 | m10 | m11 | m12 | m13 | m14 | p02 | p29
  | p32 | p33 | p38 | p45 | p51 | p99 | s01 | s02 | s03 | s04 | t01
  deriving DecidableEq

def Instrument.toString : Instrument → String
  | .b01 => "b01" | .b01_1 => "b01-1" | .b07 => "b07" | .b07_1 => "b07-1" | .b16 => "b16"
  | .b18 => "b18" | .b21 => "b21" | .b22 => "b22" | .b23 => "b23" | .b24 => "b24"
  | .b24_1 => "b24-1" | .e01 => "e01" | .e02 => "e02" | .e03 => "e03" | .i02_1 => "i02-1"
  | .i02_2 => "i02-2" | .i03 => "i03" | .i04 => "i04" | .i04_1 => "i04-1" | .i05 => "i05"
  | .i05_1 => "i05-1" | .i06 => "i06" | .i06_1 => "i06-1" | .i06_2 => "i06-2" | .i07 => "i07"
  | .i08 => "i08" | .i08_1 => "i08-1" | .i09 => "i09" | .i09_1 => "i09-1" | .i09_2 => "i09-2"
  | .i10 => "i10" | .i10_1 => "i10-1" | .i11 => "i11" | .i11_1 => "i11-1" | .i12 => "i12"
  | .i13 => "i13" | .i13_1 => "i13-1" | .i14 => "i14" | .i15 => "i15" | .i15_1 => "i15-1"
  | .i16 => "i16" | .i18 => "i18" | .i19 => "i19" | .i19_1 => "i19-1" | .i19_2 => "i19-2"
  | .i20 => "i20" | .i20_1 => "i20-1" | .i21 => "i21" | .i22 => "i22" | .i23 => "i23"
  | .i24 => "i24" | .k11 => "k11" | .labxchem => "labxchem" | .m01 => "m01" | .m02 => "m02"
  | .m03 => "m03" | .m04 => "m04" | .m05 => "m05" | .m06 => "m06" | .m07 => "m07"
  | .m08 => "m08" | .m10 => "m10" | .m11 => "m11" | .m12 => "m12" | .m13 => "m13"
  | .m14 => "m14" | .p02 => "p02" | .p29 => "p29" | .p32 => "p32" | .p33 => "p33"
  | .p38 => "p38" | .p45 => "p45" | .p51 => "p51" | .p99 => "p99" | .s01 => "s01"
  | .s02 => "s02" | .s03 => "s03" | .s04 => "s04" | .t01 => "t01"

structure PrimitiveDateTime where
  year : Int
  month : Nat
  day : Nat
  hour : Nat
  minute : Nat
  second : Nat
  nanosecond : Nat
  deriving DecidableEq

structure Session where
  proposalCode : String
  proposalNumber : UInt32
  visit : UInt32
  instrument : Instrument
  members : Finset String
  gid : Option UInt32
  startDate : PrimitiveDateTime
  endDate : PrimitiveDateTime
  dataDirectory : Option String
  deriving DecidableEq

abbrev Sessions := Std.TreeMap String Session

/-- `PathBuf::push`: an absolute component replaces what stands before it. -/
def pushComponent (path component : String) : String :=
  if component.startsWith "/" then component
  else if path.isEmpty || path.endsWith "/" then path ++ component
  else path ++ "/" ++ component

def pathFromIter (components : List String) : String :=
  components.foldl pushComponent ""

def Session.directory (session : Session) : Option String :=
  match session.instrument with
  | .b01_1 | .b07 | .b07_1 | .b16 | .b18 | .b21 | .b22 | .b23 | .b24 | .b24_1 | .e01 | .e02
  | .e03 | .i03 | .i04 | .i04_1 | .i05 | .i05_1 | .i06 | .i06_1 | .i06_2 | .i07 | .i08 | .i08_1
  | .i09 | .i09_1 | .i09_2 | .i10 | .i10_1 | .i11 | .i11_1 | .i12 | .i13 | .i13_1 | .i14 | .i15
  | .i15_1 | .i16 | .i18 | .i19 | .i19_1 | .i19_2 | .i20 | .i20_1 | .i21 | .i22 | .i23 | .i24
  | .k11 | .m01 | .m02 | .m03 | .m04 | .m05 | .m06 | .m07 | .m08 | .m10 | .m11 | .m12 | .m13
  | .m14 | .p02 | .p29 | .p32 | .p33 | .p38 | .p45 | .p99 | .s01 | .s02 | .s03 | .s04 =>
    some (pathFromIter ["/dls", session.instrument.toString, "data",
      toString session.startDate.year,
      session.proposalCode ++ toString session.proposalNumber ++ "-" ++ toString session.visit])
  | _ => none

/-- The text the `time` and `serde_json` crates give for a date and for a set of members. -/
structure Crates where
  dateTimeToString : PrimitiveDateTime → String
  membersToJson : Finset String → String

def managedByLabel : String := "app.kubernetes.io/managed-by"

def managedBy : String := "sessionspaces"

structure ConfigMap where
  name : String
  labels : List (String × String)
  data : Std.TreeMap String String

structure Namespace where
  labels : List (String × String)
  configMap : Option ConfigMap

/-- The object that `create_configmap` applies. The paths are built from strings, so `to_str`
never fails. -/
def configMapOf (crates : Crates) (session : Session) : ConfigMap :=
  let mountPath := session.dataDirectory <|> session.directory
  let data : Std.TreeMap String String := .ofList [
    ("proposal_code", session.proposalCode),
    ("proposal_number", toString session.proposalNumber),
    ("visit", toString session.visit),
    ("instrument", session.instrument.toString),
    ("members", crates.membersToJson session.members),
    ("start_date", crates.dateTimeToString session.startDate),
    ("end_date", crates.dateTimeToString session.endDate)]
  let data := match session.gid with
    | some gid => data.insert "gid" (toString gid)
    | none => data
  let data := match mountPath with
    | some path => data.insert "data_directory" path
    | none => data
  { name := "sessionspaces", labels := [(managedByLabel, managedBy)], data }

structure StaticSessions where
  sessions : Sessions

/-- Real sessions with the same name take precedence. -/
def StaticSessions.mergeInto (self : StaticSessions) (target : Sessions) : Sessions :=
  self.sessions.foldl (fun target name session => target.insertIfNew name session) target

end Workflows.Sessionspaces
