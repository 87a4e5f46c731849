import Flowstep.Duration
import Flowstep.Project.Bundle
import Flowstep.Script.Summary

/-!
How projects are run.
-/
namespace Flowstep.Run

open Json (Reader slots)

structure Config where
  debug : Bool := false
  breakOnEntry : Bool := true
  locale : Script.Locale := .en
  mainName : String := "main"
  indentWidth : Nat := 4
  callTimeout : Nat := 600
  packageTimeout : Nat := 600
  cacheDir : String := ".weft/packages"
  reportCapacity : Nat := 1024
deriving Inhabited

inductive ConfigError where
  | noFile
  | unreadable
  | zeroIndent
deriving DecidableEq, Repr

def ConfigError.message : ConfigError → String
  | .noFile => "IO error: no such file"
  | .unreadable => "JSON error: unreadable configuration"
  | .zeroIndent => "Configuration error: indent_width must be positive"

namespace Config

def read : Reader Config := fun j => do
  let [debug, breakOnEntry, locale, mainName, indentWidth, callTimeout, packageTimeout, cacheDir,
    reportCapacity] ← slots ["debug_mode", "break_on_entry", "locale", "main_process_name",
      "indent_width", "call_timeout_secs", "dependency_timeout_secs", "package_cache_dir",
      "report_capacity"] j | none
  let standard : Config := {}
  return {
    debug := ← debug.getD .flag standard.debug
    breakOnEntry := ← breakOnEntry.getD .flag standard.breakOnEntry
    locale := ← locale.getD (.word Script.Locale.ofTag?) standard.locale
    mainName := ← mainName.getD .text standard.mainName
    indentWidth := ← indentWidth.getD .natural standard.indentWidth
    callTimeout := ← callTimeout.getD .natural standard.callTimeout
    packageTimeout := ← packageTimeout.getD .natural standard.packageTimeout
    cacheDir := ← cacheDir.getD .text standard.cacheDir
    reportCapacity := ← reportCapacity.getD .natural standard.reportCapacity }

def toJson (c : Config) : Json :=
  .ofFields [("debug_mode", .bool c.debug), ("break_on_entry", .bool c.breakOnEntry),
    ("locale", .str c.locale.tag), ("main_process_name", .str c.mainName),
    ("indent_width", .int c.indentWidth), ("call_timeout_secs", .int c.callTimeout),
    ("dependency_timeout_secs", .int c.packageTimeout), ("package_cache_dir", .str c.cacheDir),
    ("report_capacity", .int c.reportCapacity)]

def load (text : Option String) : Except ConfigError Config :=
  match text with
  | none => .error .noFile
  | some text =>
    match (Json.Written.parse? text).bind read with
    | none => .error .unreadable
    | some c => if c.indentWidth = 0 then .error .zeroIndent else .ok c

def settings (c : Config) : Project.Settings :=
  { mainName := c.mainName, debug := c.debug, indentWidth := c.indentWidth }

end Config

end Flowstep.Run
