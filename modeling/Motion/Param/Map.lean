import Motion.Dictionary
import Motion.Param.Value

namespace Motion.Param

/-- Parameters by name, in the order of their declaration: resolved parameters are packed one after
the other. -/
abbrev Map := Dictionary Value

end Motion.Param
