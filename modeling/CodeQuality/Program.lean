/-!
# The program's name

The name and the version under which the program is called and makes itself known.
-/

namespace CodeQuality

def programName : String := "sq"

def version : String := "0.1.0"

end CodeQuality
