import Parley.Web.Fetch
import Parley.Workspace.Tools

/-!
# The standard tools

The tools of the workspace and the one that fetches pages work side by side on their `Surroundings`:
the files and the network.
-/

namespace Parley

open Net (Network)
open Workspace (Mount Tree)

/-- What the standard tools work on. -/
structure Surroundings where
  /-- The files. -/
  files : Tree := .empty
  /-- The network. -/
  network : Network := {}

namespace Surroundings

/-- The surroundings with other files. -/
def withFiles (files : Tree) (s : Surroundings) : Surroundings := { s with files }

/-- The surroundings with another network. -/
def withNetwork (network : Network) (s : Surroundings) : Surroundings := { s with network }

end Surroundings

namespace Tool

/-- The standard tools. -/
def builtin (m : Mount := .whole) : List (Tool Surroundings) :=
  (Workspace.tools m).map (·.within Surroundings.files Surroundings.withFiles) ++
    [(Web.fetchTool Web.defaultLimit).within Surroundings.network Surroundings.withNetwork]

/-- The names of the standard tools. -/
theorem map_name_builtin (m : Mount) : (builtin m).map name = ["vfs_list_dir", "vfs_read_file",
    "vfs_search", "vfs_write_file", "vfs_move", "vfs_delete", "web_fetch"] := rfl

end Tool

/-- The registry of the standard tools. -/
def Registry.builtin (m : Mount := .whole) : Registry Surroundings where
  tools := Tool.builtin m
  index := Entries.ofList ((Tool.builtin m).map Tool.name).zipIdx
  registered := by
    rw [Tool.map_name_builtin]
    exact Tool.register_eq_ok (Tool.map_name_builtin m) (by decide +kernel) (by decide +kernel)

end Parley
