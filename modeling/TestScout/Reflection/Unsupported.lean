set_option autoImplicit false

namespace TestScout

inductive UnsupportedMember where
  | typeBaseType
  | typeInterfaces
  | typeIsGenericParameter
  | typeIsGenericType
  | typeIsValueType
  | typeGenericArguments
  | typeMethod
  | methodIsAbstract
  | methodIsPublic
  | methodIsStatic
  | methodReturnType
  | methodDeclaringType
  | methodGenericArguments
  | methodMakeGenericMethod
  | parameterType
  | assemblyGetType
  deriving DecidableEq, Repr

namespace UnsupportedMember

def all : List UnsupportedMember :=
  [.typeBaseType,.typeInterfaces,.typeIsGenericParameter,.typeIsGenericType,.typeIsValueType,
   .typeGenericArguments,.typeMethod,.methodIsAbstract,.methodIsPublic,.methodIsStatic,
   .methodReturnType,.methodDeclaringType,.methodGenericArguments,.methodMakeGenericMethod,
   .parameterType,.assemblyGetType]

def path : UnsupportedMember → String
  | .typeBaseType => "TypeInfo::base_type"
  | .typeInterfaces => "TypeInfo::interfaces"
  | .typeIsGenericParameter => "TypeInfo::is_generic_parameter"
  | .typeIsGenericType => "TypeInfo::is_generic_type"
  | .typeIsValueType => "TypeInfo::is_value_type"
  | .typeGenericArguments => "TypeInfo::generic_arguments"
  | .typeMethod => "TypeInfo::method"
  | .methodIsAbstract => "MethodInfo::is_abstract"
  | .methodIsPublic => "MethodInfo::is_public"
  | .methodIsStatic => "MethodInfo::is_static"
  | .methodReturnType => "MethodInfo::return_type"
  | .methodDeclaringType => "MethodInfo::declaring_type"
  | .methodGenericArguments => "MethodInfo::generic_arguments"
  | .methodMakeGenericMethod => "MethodInfo::make_generic_method"
  | .parameterType => "ParameterInfo::parameter_type"
  | .assemblyGetType => "AssemblyInfo::get_type"

def message (m : UnsupportedMember) : String :=
  "\x60" ++ m.path ++ "\x60 is not supported by source-based reflection"

end UnsupportedMember

end TestScout
