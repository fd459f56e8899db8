import ImportAlias.Text.Basic

/-!
# Import specifiers

A specifier is the text that an import statement names its module by. What kind of module it
names is read off the text alone; no file and no registry is consulted.
-/

namespace ImportAlias

namespace Specifier

/-- Whether the specifier names a module that exists in no file. Tools mark such modules with a
NUL character, anywhere in the name. -/
def isVirtual (id : Text) : Bool := id.contains '\x00'

/-- Whether the specifier looks like the name of a package and not like a local path. A scoped
name starts with `@`; any other name is a package name exactly when no `.` occurs in it, so
`lodash` and `utils/helper` are packages while `utils/helper.js` and `lodash.merge` are not. -/
def isPackageName (id : Text) : Bool := id.head? == some '@' || !id.contains '.'

/-- Whether the specifier is relative to the module that imports it. -/
def isRelative (id : Text) : Bool :=
  id = ['.'] || id = ['.', '.'] || Text.startsWith ['.', '/'] id ||
    Text.startsWith ['.', '.', '/'] id

end Specifier

end ImportAlias
