set_option autoImplicit false

namespace TestExplorer

def version : String := "0.1.0"

end TestExplorer
