import Coupling.Json.Decode
import Coupling.Settings.Basic

/-!
# Reading settings from values

A group of settings is an object, of which every field may be missing and unknown ones mean nothing,
or an array of the fields in their order.
-/

namespace Coupling.Settings

namespace Decode

/-- The fields of a group; `exact` refuses arrays with more items than there are fields. -/
def group? (exact : Bool) (names : List String) : Json → Option Json
  | .obj fields => some (.obj fields)
  | .arr items =>
    if exact && names.length < items.length then none else some (.obj (names.zip items))
  | _ => none

/-- A field of a group, or its default when it is missing. -/
def setting? {α : Type} (group : Json) (name : String) (item? : Json → Option α) (default : α) :
    Option α :=
  match group.field? name with
  | some j => item? j
  | none => some default

end Decode

open Json Decode

def limitNames : List String :=
  ["max_positional_params", "max_call_args", "max_cyclomatic_complexity", "max_nesting_depth",
   "god_class_methods", "god_class_lines", "duplicate_statement_minimum",
   "magic_literal_allowed_numbers", "magic_literal_allowed_strings", "min_string_length",
   "security_keywords", "security_context_lines", "high_name_usage_threshold",
   "max_param_name_length", "check_type_annotations"]

def limits? (exact : Bool) (j : Json) : Option Limits := do
  let g ← group? exact limitNames j
  let d : Limits := {}
  return {
    maxPositionalParams := ← setting? g "max_positional_params" count? d.maxPositionalParams
    maxCallArgs := ← setting? g "max_call_args" count? d.maxCallArgs
    maxCyclomaticComplexity :=
      ← setting? g "max_cyclomatic_complexity" count? d.maxCyclomaticComplexity
    maxNestingDepth := ← setting? g "max_nesting_depth" count? d.maxNestingDepth
    godClassMethods := ← setting? g "god_class_methods" count? d.godClassMethods
    godClassLines := ← setting? g "god_class_lines" count? d.godClassLines
    duplicateStatementMinimum :=
      ← setting? g "duplicate_statement_minimum" count? d.duplicateStatementMinimum
    allowedNumbers := ← setting? g "magic_literal_allowed_numbers" (list? real?) d.allowedNumbers
    allowedStrings := ← setting? g "magic_literal_allowed_strings" (list? text?) d.allowedStrings
    minStringLength := ← setting? g "min_string_length" count? d.minStringLength
    securityKeywords := ← setting? g "security_keywords" (list? text?) d.securityKeywords
    securityContextLines := ← setting? g "security_context_lines" count? d.securityContextLines
    highNameUsageThreshold :=
      ← setting? g "high_name_usage_threshold" count? d.highNameUsageThreshold
    maxParamNameLength := ← setting? g "max_param_name_length" count? d.maxParamNameLength
    checkTypeAnnotations := ← setting? g "check_type_annotations" flag? d.checkTypeAnnotations }

def parallel? (exact : Bool) (j : Json) : Option ParallelSettings := do
  let g ← group? exact ["enabled", "max_workers"] j
  let d : ParallelSettings := {}
  return {
    enabled := ← setting? g "enabled" flag? d.enabled
    maxWorkers := ← setting? g "max_workers" (optional? count?) d.maxWorkers }

def cache? (exact : Bool) (j : Json) : Option CacheSettings := do
  let g ← group? exact ["enabled", "directory", "memory_capacity"] j
  let d : CacheSettings := {}
  return {
    enabled := ← setting? g "enabled" flag? d.enabled
    directory := ← setting? g "directory" (optional? text?) d.directory
    memoryCapacity := ← setting? g "memory_capacity" count? d.memoryCapacity }

/-- Settings from a value; `exact` refuses arrays with too many items. -/
def decode? (exact : Bool) (j : Json) : Option Settings := do
  let g ← group? exact ["thresholds", "parallel", "cache", "exclusions"] j
  let d : Settings := {}
  return {
    limits := ← setting? g "thresholds" (limits? exact) d.limits
    parallel := ← setting? g "parallel" (parallel? exact) d.parallel
    cache := ← setting? g "cache" (cache? exact) d.cache
    exclusions := ← setting? g "exclusions" (list? text?) d.exclusions }

/-- Limits as a value, in the order of their names. -/
def encodeLimits (l : Limits) : Json :=
  .obj
    [("max_positional_params", .nat l.maxPositionalParams), ("max_call_args", .nat l.maxCallArgs),
     ("max_cyclomatic_complexity", .nat l.maxCyclomaticComplexity),
     ("max_nesting_depth", .nat l.maxNestingDepth), ("god_class_methods", .nat l.godClassMethods),
     ("god_class_lines", .nat l.godClassLines),
     ("duplicate_statement_minimum", .nat l.duplicateStatementMinimum),
     ("magic_literal_allowed_numbers", .arr (l.allowedNumbers.map .float)),
     ("magic_literal_allowed_strings", .arr (l.allowedStrings.map .str)),
     ("min_string_length", .nat l.minStringLength),
     ("security_keywords", .arr (l.securityKeywords.map .str)),
     ("security_context_lines", .nat l.securityContextLines),
     ("high_name_usage_threshold", .nat l.highNameUsageThreshold),
     ("max_param_name_length", .nat l.maxParamNameLength),
     ("check_type_annotations", .bool l.checkTypeAnnotations)]

def encode (s : Settings) : Json :=
  .obj
    [("thresholds", encodeLimits s.limits),
     ("parallel", .obj
       [("enabled", .bool s.parallel.enabled),
        ("max_workers", (s.parallel.maxWorkers.map Json.nat).getD .null)]),
     ("cache", .obj
       [("enabled", .bool s.cache.enabled),
        ("directory", (s.cache.directory.map Json.str).getD .null),
        ("memory_capacity", .nat s.cache.memoryCapacity)]),
     ("exclusions", .arr (s.exclusions.map .str))]

end Coupling.Settings
