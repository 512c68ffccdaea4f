namespace MerkleDir

/-- Variables by name; of two with one name the first counts. -/
abbrev Environment := List (String × String)

def Environment.get? (env : Environment) (name : String) : Option String := List.lookup name env

end MerkleDir
