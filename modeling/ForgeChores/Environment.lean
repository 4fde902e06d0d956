import ForgeChores.Table

/-!
# ForgeChores.Environment

Environment variables.
-/

namespace ForgeChores

abbrev Environment := Table String String

namespace Environment

/-- The value of a variable; an empty one is as good as none. -/
def value? (env : Environment) (name : String) : Option String :=
  (env.get? name).filter (· ≠ "")

def getOr (env : Environment) (name default : String) : String :=
  (env.value? name).getD default

end Environment
end ForgeChores
