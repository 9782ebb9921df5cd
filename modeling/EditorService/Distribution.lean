import EditorService.Version.Build

/-!
# The distribution of the service

What the package of the service says about itself: its name, what it needs, what it needs for each of its optional
parts, and what it offers to be started or plugged in. The version comes from the version tool, the long description
from a file.
-/

namespace EditorService.Distribution

open EditorService.Version (Routine Packaging projectVersion)

/-- The packages that are always needed. -/
def requirements : List String := [
  "configparser; python_version<\"3.0\"", "future>=0.14.0; python_version<\"3\"",
  "backports.functools_lru_cache; python_version<\"3.2\"", "jedi>=0.17.2,<0.18.0", "python-jsonrpc-server>=0.4.0",
  "pluggy", "ujson<=2.0.3 ; platform_system!=\"Windows\" and python_version<\"3.0\"",
  "ujson>=3.0.0 ; python_version>\"3\""]

/-- The packages that the optional parts need. -/
def extraRequirements : List (String × List String) := [
  ("all", [
    "autopep8", "flake8>=3.8.0", "mccabe>=0.6.0,<0.7.0", "pycodestyle>=2.6.0,<2.7.0", "pydocstyle>=2.0.0",
    "pyflakes>=2.2.0,<2.3.0", "pylint>=2.5.0", "rope>=0.10.5", "yapf"]),
  ("autopep8", ["autopep8"]),
  ("flake8", ["flake8>=3.8.0"]),
  ("mccabe", ["mccabe>=0.6.0,<0.7.0"]),
  ("pycodestyle", ["pycodestyle>=2.6.0,<2.7.0"]),
  ("pydocstyle", ["pydocstyle>=2.0.0"]),
  ("pyflakes", ["pyflakes>=2.2.0,<2.3.0"]),
  ("pylint", ["pylint>=2.5.0"]),
  ("rope", ["rope>0.10.5"]),
  ("yapf", ["yapf"]),
  ("test", [
    "versioneer", "pylint>=2.5.0", "pytest", "mock", "pytest-cov", "coverage", "numpy", "pandas", "matplotlib",
    "pyqt5;python_version>=\"3\"", "flaky"])]

/-- What can be started and plugged in. -/
def entryPoints : List (String × List String) := [
  ("console_scripts", ["pyls = pyls.__main__:main"]),
  ("pyls", [
    "autopep8 = pyls.plugins.autopep8_format", "folding = pyls.plugins.folding",
    "flake8 = pyls.plugins.flake8_lint", "jedi_completion = pyls.plugins.jedi_completion",
    "jedi_definition = pyls.plugins.definition", "jedi_hover = pyls.plugins.hover",
    "jedi_highlight = pyls.plugins.highlight", "jedi_references = pyls.plugins.references",
    "jedi_rename = pyls.plugins.jedi_rename", "jedi_signature_help = pyls.plugins.signature",
    "jedi_symbols = pyls.plugins.symbols", "mccabe = pyls.plugins.mccabe_lint",
    "preload = pyls.plugins.preload_imports", "pycodestyle = pyls.plugins.pycodestyle_lint",
    "pydocstyle = pyls.plugins.pydocstyle_lint", "pyflakes = pyls.plugins.pyflakes_lint",
    "pylint = pyls.plugins.pylint_lint", "rope_completion = pyls.plugins.rope_completion",
    "rope_rename = pyls.plugins.rope_rename", "yapf = pyls.plugins.yapf_format"])]

/-- The directories that are not packages of the service. -/
def excluded : List String := ["contrib", "docs", "test", "test.*"]

/-- A table of lists of texts as a value. -/
def listing (table : List (String × List String)) : Value := .dict (table.map fun e => (e.1, Value.ofTexts e.2))

/-- **What the package says about itself.** -/
def describe : Routine Value := do
  let readme ← Routine.read "README.rst"
  let version ← projectVersion
  return .dict [
    ("name", .str "python-language-server"),
    ("version", version),
    ("cmdclass", Value.ofTexts (Version.sortTexts (Table.keys (Packaging.commands {})))),
    ("description", .str "Python Language Server for the Language Server Protocol"),
    ("long_description", .str readme),
    ("url", .str "https://github.com/palantir/python-language-server"),
    ("author", .str "Palantir Technologies, Inc."),
    ("packages", .dict [("exclude", Value.ofTexts excluded)]),
    ("install_requires", Value.ofTexts requirements),
    ("extras_require", listing extraRequirements),
    ("entry_points", listing entryPoints)]

end EditorService.Distribution
