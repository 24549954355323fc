import ScriptServer.Server.Static

/-!
# What files answer

A file and a directory answer in the same three ways: they refuse the method, find nothing, or give
the content of a file.
-/

namespace ScriptServer.Server.Static

open Http (Request Response)

/-- A response of files to a request. -/
inductive Answers (fs : Files) (request : Request) : Response → Prop where
  | refused (other : request.method ∉ methods) : Answers fs request (notAllowed methods)
  | missing (own : request.method ∈ methods) : Answers fs request notFound
  | content (own : request.method ∈ methods) (path : String) : Answers fs request (readFile fs path)

variable {fs : Files} {request : Request} {response : Response}

theorem status_readFile (fs : Files) (path : String) : (readFile fs path).status ≠ 405 := by
  unfold readFile
  split
  · exact (by decide : (200 : Nat) ≠ 405)
  · exact (by decide : (404 : Nat) ≠ 405)

namespace Answers

/-- Files refuse all methods but their own. -/
theorem status_eq_iff (h : Answers fs request response) :
    response.status = 405 ↔ request.method ∉ methods := by
  cases h with
  | refused other => exact iff_of_true rfl other
  | missing own => exact iff_of_false (by decide : (404 : Nat) ≠ 405) (Classical.not_not.mpr own)
  | content own path => exact iff_of_false (status_readFile fs path) (Classical.not_not.mpr own)

theorem eq_notAllowed (h : Answers fs request response) (other : request.method ∉ methods) :
    response = notAllowed methods := by
  cases h with
  | refused => rfl
  | missing own => exact absurd own other
  | content own => exact absurd own other

end Answers

theorem answers_serveFile (fs : Files) (request : Request) (path : String) :
    Answers fs request (serveFile fs request path) := by
  unfold serveFile
  split
  · next own => exact .content (List.contains_iff_mem.mp own) path
  · next other => exact .refused fun mem => other (List.contains_iff_mem.mpr mem)

theorem answers_serveDirectory (fs : Files) (request : Request) (dir rest : String) :
    Answers fs request (serveDirectory fs request dir rest) := by
  unfold serveDirectory
  by_cases own : request.method ∈ methods
  · have below (path : String) : Answers fs request (if leavesDirectory path then notFound else
        let full := Path.join dir path
        readFile fs (if fs.isDirectory full then Path.join full indexFile else full)) := by
      split
      · exact .missing own
      · exact .content own _
    rw [if_neg (by simpa using own)]
    exact below _
  · rw [if_pos (by simpa using own)]
    exact .refused own

end ScriptServer.Server.Static
