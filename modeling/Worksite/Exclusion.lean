import Worksite.Path

/-!
What is never walked or shown: directories of version control, caches, build output and backups,
and files of some endings.
-/
namespace Worksite.Exclusion

def directories : List String :=
  [".git", ".hg", ".svn", "node_modules", "bower_components", "__pycache__", ".venv", "venv", ".tox",
   ".mypy_cache", ".pytest_cache", ".ruff_cache", ".cache", "dist", "build", "target", "out", ".next",
   "coverage", ".idea", ".burrow", "backups", ".backups", "archive", "archives"]

/-- Patterns of files. -/
def files : List String :=
  ["**/*.pyc", "**/*.pyo", "**/*.class", "**/*.o", "**/*.so", "**/*.bak", "**/*.zip", "**/*.tar",
   "**/*.gz"]

/-- Whether a name before the last one is that of such a directory. -/
def holds (names : List String) : Bool := names.dropLast.any (· ∈ directories)

def holdsPath (path : String) : Bool := holds ((Path.steps path).map Path.Step.text)

end Worksite.Exclusion
