import HetidaDesigner.Library.Replacements
import HetidaDesigner.Models.Io

/-!
# Paths in urls

The functions `to_url_representation` and `from_url_representation`, which `local_file/utils.py`,
`sql_adapter/utils.py` and `kafka/utils.py` define alike. Underscores are escaped by dashes around
them, so that two underscores in a row can stand for a slash.
-/

namespace HetidaDesigner

open Replacements

/-- `path.replace("_", "-_-").replace("/", "__")` -/
def toUrlRepresentation (path : PyStr) : PyStr :=
  replaceAll ['/'] ['_', '_'] (replaceAll ['_'] ['-', '_', '-'] path)

/-- `url_rep.replace("__", "/").replace("-_-", "_")` -/
def fromUrlRepresentation (urlRep : PyStr) : PyStr :=
  replaceAll ['-', '_', '-'] ['_'] (replaceAll ['_', '_'] ['/'] urlRep)

/-- A character after the first step of the encoding. -/
def escapeUnderscore (c : Char) : PyStr := if c = '_' then ['-', '_', '-'] else [c]

/-- Escaping underscores works character by character. -/
theorem replaceAll_underscore (path : PyStr) :
    replaceAll ['_'] ['-', '_', '-'] path = path.flatMap escapeUnderscore :=
  replaceAll_singleton '_' ['-', '_', '-'] path

/-- No escaped path starts with an underscore. -/
theorem not_prefix_escaped (path : PyStr) : ¬ ['_'] <+: path.flatMap escapeUnderscore := by
  intro h
  cases path with
  | nil => exact absurd (List.prefix_nil.mp h) (by decide)
  | cons c rest =>
    rw [List.flatMap_cons, escapeUnderscore] at h
    split at h
    · exact absurd (List.cons_prefix_cons.mp h).1 (by decide)
    · rename_i hc
      exact hc (List.cons_prefix_cons.mp h).1.symm

/-- Slashes come back where two underscores follow each other. -/
theorem replaceAll_slash_escaped (path : PyStr) :
    replaceAll ['_', '_'] ['/'] (replaceAll ['/'] ['_', '_'] (path.flatMap escapeUnderscore)) =
      path.flatMap escapeUnderscore := by
  induction path with
  | nil => rfl
  | cons c rest ih =>
    let encoded := replaceAll ['/'] ['_', '_'] (rest.flatMap escapeUnderscore)
    rw [List.flatMap_cons, escapeUnderscore]
    by_cases hunderscore : c = '_'
    · have hdash : ¬ ['_', '_'] <+: '_' :: '-' :: encoded := by
        intro h
        exact absurd (List.cons_prefix_cons.mp (List.cons_prefix_cons.mp h).2).1 (by decide)
      rw [if_pos hunderscore]
      change replaceAll ['_', '_'] ['/'] ('-' :: '_' :: '-' :: encoded) = '-' :: '_' :: '-' :: _
      rw [replaceAll_cons_of_ne (by decide), replaceAll_cons hdash,
        replaceAll_cons_of_ne (by decide), ih]
      rfl
    · rw [if_neg hunderscore, List.singleton_append]
      by_cases hslash : c = '/'
      · subst hslash
        change replaceAll ['_', '_'] ['/'] (['_', '_'] ++ encoded) = _
        rw [replaceAll_append (by decide), ih, List.singleton_append]
      · rw [replaceAll_cons_of_ne hslash, replaceAll_cons_of_ne hunderscore, ih]

/-- Underscores come back where they are escaped. -/
theorem replaceAll_escaped (path : PyStr) :
    replaceAll ['-', '_', '-'] ['_'] (path.flatMap escapeUnderscore) = path := by
  induction path with
  | nil => rfl
  | cons c rest ih =>
    rw [List.flatMap_cons, escapeUnderscore]
    split
    · rename_i hc
      rw [replaceAll_append (by decide), ih, hc]
      rfl
    · have hborder : ¬ ['-', '_', '-'] <+: c :: rest.flatMap escapeUnderscore := by
        intro h
        refine not_prefix_escaped rest ?_
        exact (List.prefix_append ['_'] ['-']).trans (List.cons_prefix_cons.mp h).2
      change replaceAll _ _ (c :: rest.flatMap escapeUnderscore) = c :: rest
      rw [replaceAll_cons hborder, ih]

/-- Decoding undoes the encoding of a path. -/
theorem fromUrlRepresentation_toUrlRepresentation (path : PyStr) :
    fromUrlRepresentation (toUrlRepresentation path) = path := by
  rw [fromUrlRepresentation, toUrlRepresentation, replaceAll_underscore, replaceAll_slash_escaped,
    replaceAll_escaped]

/-- Different paths have different representations, and each is decoded to its path. -/
theorem toUrlRepresentation_injective_and_decodable :
    Function.Injective toUrlRepresentation ∧
      ∀ path, fromUrlRepresentation (toUrlRepresentation path) = path := by
  have hinverse : Function.LeftInverse fromUrlRepresentation toUrlRepresentation :=
    fromUrlRepresentation_toUrlRepresentation
  exact ⟨hinverse.injective, hinverse⟩

example : toUrlRepresentation "a_/b".toList = "a-_-__b".toList := by decide

end HetidaDesigner
