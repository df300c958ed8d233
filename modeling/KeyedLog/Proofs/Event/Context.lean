import KeyedLog.Event

/-!
Contexts as assignments of values to names. A name has the value that was inserted last.
-/

namespace KeyedLog

namespace Entries

theorem lookup_cons (entry : String × String) (rest : List (String × String)) (name : String) :
    List.lookup name (entry :: rest) = if name = entry.1 then some entry.2 else List.lookup name rest := by
  obtain ⟨other, value⟩ := entry
  by_cases same : name = other
  · simp [same]
  · have different : (name == other) = false := by simpa using same
    simp [List.lookup_cons, different, same]

end Entries

namespace Context

end Context

end KeyedLog
